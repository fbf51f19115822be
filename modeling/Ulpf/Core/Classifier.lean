import Ulpf.Core.Text

/-!
# The vendor classifier

A multi-pattern search over the whole line, then a structural fallback. The automaton of the
`aho-corasick` crate is the search it is documented to be: the leftmost match, ties broken by
the order of the patterns.
-/

namespace Ulpf.Core

inductive VendorFormat where
  | ciscoAsa
  | fortinet
  | paloAlto
  | suricata
  | pfSense
  | kaggleFirewall
  | unknown
deriving DecidableEq

def patternsWithFormats : List (String × VendorFormat) := [
  -- Cisco ASA signatures
  ("%ASA-", .ciscoAsa),
  -- Fortinet signatures (both KV and CEF)
  ("CEF:0|Fortinet", .fortinet),
  ("|Fortinet|", .fortinet),
  ("deviceExternalId=FGT", .fortinet),
  ("devname=\"", .fortinet),
  ("type=\"traffic\"", .fortinet),
  ("logid=\"", .fortinet),
  ("type=traffic", .fortinet),
  ("devname=", .fortinet),
  -- pfSense signatures
  ("filterlog[", .pfSense),
  ("filterlog:", .pfSense),
  -- Suricata signatures
  ("\x7b\"timestamp\":", .suricata),
  ("\"event_type\":", .suricata),
  ("\"flow\":", .suricata),
  ("\"alert\":", .suricata),
  -- Palo Alto PAN-OS signatures
  (",TRAFFIC,", .paloAlto),
  (",THREAT,", .paloAlto),
  (",SYSTEM,", .paloAlto),
  ("TRAFFIC,drop", .paloAlto),
  ("TRAFFIC,allow", .paloAlto),
  ("TRAFFIC,start", .paloAlto),
  ("TRAFFIC,end", .paloAlto),
  ("PAN-OS", .paloAlto),
  -- Kaggle Firewall signatures
  ("%KAGGLE-FW-", .kaggleFirewall),
  ("firewall-kaggle", .kaggleFirewall)]

/-- The first pattern of the table that starts at the head of `s`. -/
def matchHere (s : Text) : Option VendorFormat :=
  (patternsWithFormats.find? fun p => startsWith s p.1).map Prod.snd

/-- `AhoCorasick::find` with `MatchKind::LeftmostFirst`, and the format of the match. -/
def acFind : Text → Option VendorFormat
  | [] => matchHere []
  | c :: s => (matchHere (c :: s)).or (acFind s)

def fallbackClassify (raw : Text) : VendorFormat :=
  let trimmed := trim raw
  let commaCount := trimmed.countP (· == ',')
  if contains trimmed "%ASA-" then .ciscoAsa
  else if contains trimmed "filterlog" then .pfSense
  else if (startsWith trimmed "\x7b" || contains trimmed "\x7b\"") &&
      (contains trimmed "\"timestamp\"" || contains trimmed "\"event_type\"") then .suricata
  else if (contains trimmed "srcip=" || contains trimmed "dstip=") &&
      contains trimmed "proto=" then .fortinet
  else if (startsWith trimmed "CEF:" || contains trimmed "CEF:") &&
      (contains trimmed "Fortinet" || contains trimmed "FortiGate") then .fortinet
  else if contains trimmed "%KAGGLE-FW-" || contains trimmed "firewall-kaggle" then
    .kaggleFirewall
  -- Palo Alto PAN-OS CSV heuristic: typically has 20+ comma-separated tokens
  else if decide (15 ≤ commaCount) &&
      (contains trimmed "TRAFFIC" || contains trimmed "THREAT" || contains trimmed "allow" ||
        contains trimmed "deny" || contains trimmed "drop") then .paloAlto
  -- Kaggle raw CSV heuristic: exactly 11 commas (12 columns)
  else if commaCount == 11 &&
      (startsWith trimmed "Source Port" ||
        (parseUnsigned 16 (trim (trimmed.takeWhile (· != ',')))).isSome) then .kaggleFirewall
  else .unknown

def classify (raw : String) : VendorFormat :=
  match acFind raw.toList with
  | some format => format
  | none => fallbackClassify raw.toList

end Ulpf.Core
