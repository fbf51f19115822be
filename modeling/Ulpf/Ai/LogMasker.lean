import Ulpf.Ai.Drain
import Ulpf.Ai.Patterns
import Ulpf.Core.Words
import Ulpf.Library.RegexPieces

/-!
# The parameter masker of the miner

`LogMasker::mask` of `drain.rs` replaces what its expressions match by `<*>`, one expression after
another. Tests on the line itself guard the passes, and a line without digits and percent signs is
returned at once. `maskAll` is the same sequence of passes without any guard.
-/

namespace Ulpf.Ai.Drain
open Ulpf.Core Ulpf.Library Ulpf.Library.Regex

/-- A compiled expression cuts a text into its successive matches and the characters between
them. -/
abbrev CompiledMatches := Text → List (Piece Char)

structure LogMasker where
  reSyslogTag : CompiledMatches
  reIpPort : CompiledMatches
  reIp : CompiledMatches
  reTimestampIso : CompiledMatches
  reTimestampSyslog : CompiledMatches
  reHex : CompiledMatches
  reUuid : CompiledMatches
  reUrl : CompiledMatches
  reKvNum : CompiledMatches
  rePureNum : CompiledMatches

/-- `replace_all` with a replacement made of the groups of a match. -/
def replaceAll (re : CompiledMatches) (replacement : List (String × Text) → Text) (s : Text) :
    Text :=
  (re s).flatMap fun
    | .gap c => [c]
    | .found _ groups => replacement groups

def hasAsciiDigit (s : Text) : Bool := s.any Char.isDigit

/-- A pass of the masker between the protection of the tags and their restoration. -/
inductive MaskPass where
  | url
  | uuid
  | hex
  | timestampIso
  | timestampSyslog
  | ipPort
  | ip
  | kvNum
  | pureNum
deriving DecidableEq

namespace MaskPass

/-- The passes in their order. -/
def all : List MaskPass :=
  [url, uuid, hex, timestampIso, timestampSyslog, ipPort, ip, kvNum, pureNum]

/-- The test on the line before the pass; `raw.len()` counts bytes. -/
def guard (raw : Text) : MaskPass → Bool
  | url => contains raw "http"
  | uuid => raw.contains '-' && decide (36 < utf8Len raw)
  | hex => contains raw "0x"
  | timestampIso => raw.contains ':' && (raw.contains '-' || raw.contains '/')
  | timestampSyslog => raw.contains ':'
  | ipPort => raw.contains '.' && (raw.contains ':' || raw.contains '/')
  | ip => raw.contains '.'
  | kvNum => raw.contains '='
  | pureNum => hasAsciiDigit raw

def re (m : LogMasker) : MaskPass → CompiledMatches
  | url => m.reUrl
  | uuid => m.reUuid
  | hex => m.reHex
  | timestampIso => m.reTimestampIso
  | timestampSyslog => m.reTimestampSyslog
  | ipPort => m.reIpPort
  | ip => m.reIp
  | kvNum => m.reKvNum
  | pureNum => m.rePureNum

/-- `"<*>"`, with `${1}` and `${2}` around it for the numbers behind keys. -/
def replacement (groups : List (String × Text)) : MaskPass → Text
  | kvNum => (groups.lookup "1").getD [] ++ wildcard.toList ++ (groups.lookup "2").getD []
  | _ => wildcard.toList

end MaskPass

namespace LogMasker

/-- `new` panics where the crate rejects a pattern. -/
def new (regex : String → Option CompiledMatches) : Option LogMasker := do
  return {
    reSyslogTag := ← regex "%[A-Za-z0-9_-]+-\\d+-\\d+:|%[A-Za-z0-9_-]+:"
    reIpPort := ← regex
      "((?:\\d\x7b1,3\x7d\\.)\x7b3\x7d\\d\x7b1,3\x7d)[:/](\\d\x7b1,5\x7d)"
    reIp := ← regex "\\b(?:\\d\x7b1,3\x7d\\.)\x7b3\x7d\\d\x7b1,3\x7d\\b"
    reTimestampIso := ← regex
      "\\b\\d\x7b4\x7d[-/]\\d\x7b2\x7d[-/]\\d\x7b2\x7d[T\\s]\\d\x7b2\x7d:\\d\x7b2\x7d:\\d\x7b2\x7d(?:\\.\\d+)?(?:Z|[+-]\\d\x7b2\x7d:?\\d\x7b2\x7d)?\\b"
    reTimestampSyslog := ← regex
      "\\b(?:Jan|Feb|Mar|Apr|May|Jun|Jul|Aug|Sep|Oct|Nov|Dec)\\s+\\d\x7b1,2\x7d\\s+\\d\x7b2\x7d:\\d\x7b2\x7d:\\d\x7b2\x7d\\b"
    reHex := ← regex "\\b0x[0-9a-fA-F]+\\b|\\b[a-fA-F0-9]\x7b32,64\x7d\\b"
    reUuid := ← regex
      "\\b[0-9a-fA-F]\x7b8\x7d-[0-9a-fA-F]\x7b4\x7d-[0-9a-fA-F]\x7b4\x7d-[0-9a-fA-F]\x7b4\x7d-[0-9a-fA-F]\x7b12\x7d\\b"
    reUrl := ← regex "https?://[^\\s,\"'>]+"
    reKvNum := ← regex
      "(\\b(?:sessionid|session_id|logid|sentbyte|rcvdbyte|sentpkt|rcvdpkt|duration|bytes|cn1|cn2|cn3|eventtime|tracker)=\\s*[\"']?)\\d+([\"']?)"
    rePureNum := ← regex "\\b\\d\x7b3,\x7d\\b" }

def placeholder (idx : ℕ) : Text := ("__SYSLOG_TAG_" ++ toString idx ++ "__").toList

/-- The closure of `replace_all` numbers the placeholders and saves the tags. -/
def protectTags : ℕ → List (Piece Char) → Text × List (Text × Text)
  | _, [] => ([], [])
  | idx, .gap c :: pieces =>
    let rest := protectTags idx pieces
    (c :: rest.1, rest.2)
  | idx, .found tag _ :: pieces =>
    let rest := protectTags (idx + 1) pieces
    (placeholder idx ++ rest.1, (placeholder idx, tag) :: rest.2)

def restoreTags (savedTags : List (Text × Text)) (s : Text) : Text :=
  savedTags.foldl (fun s saved => replaceAfter saved.1 saved.2 0 s) s

variable (m : LogMasker)

/-- The passes in order, apart from those that `takes` rejects. -/
def run (takes : MaskPass → Bool) : List MaskPass → Text → Text
  | [], s => s
  | p :: passes, s =>
    run takes passes (if takes p then replaceAll (p.re m) p.replacement s else s)

def mask (raw : Text) : Text :=
  if !hasAsciiDigit raw && !raw.contains '%' then raw
  else
    let tagged := if raw.contains '%' then protectTags 0 (m.reSyslogTag raw) else (raw, [])
    restoreTags tagged.2 (m.run (MaskPass.guard raw) MaskPass.all tagged.1)

/-- All passes, whatever the line is. -/
def maskAll (raw : Text) : Text :=
  let tagged := protectTags 0 (m.reSyslogTag raw)
  restoreTags tagged.2 (m.run (fun _ => true) MaskPass.all tagged.1)

/-! ### The expressions -/

/-- `[0-9a-fA-F]` -/
def hexDigit : CharRegex := one (.set false [.range '0' '9', .range 'a' 'f', .range 'A' 'F'])

/-- `[A-Za-z0-9_-]+` -/
def tagName : CharRegex :=
  plus (one (.set false [.range 'A' 'Z', .range 'a' 'z', .range '0' '9', .char '_', .char '-']))

def syslogTag : CharRegex :=
  alt (cat [plain "%", tagName, plain "-", plus (one .digit), plain "-", plus (one .digit),
      plain ":"])
    (cat [plain "%", tagName, plain ":"])

def urlText : CharRegex :=
  cat [plain "http", opt (plain "s"), plain "://",
    plus (one (.set true [.space, .char ',', .char '"', .char '\'', .char '>']))]

def uuidText : CharRegex :=
  cat [boundary, exactly hexDigit 8, plain "-", exactly hexDigit 4, plain "-", exactly hexDigit 4,
    plain "-", exactly hexDigit 4, plain "-", exactly hexDigit 12, boundary]

/-- A number in hexadecimal digits behind `0x`. -/
def hexNumber : CharRegex := cat [boundary, plain "0x", plus hexDigit, boundary]

/-- A hash without `0x` before it. -/
def bareHash : CharRegex :=
  cat [boundary,
    upToMax (one (.set false [.range 'a' 'f', .range 'A' 'F', .range '0' '9'])) 32 64, boundary]

/-- `\d{2}:\d{2}:\d{2}` -/
def clockTime : CharRegex :=
  cat [Onboarder.digits 2, plain ":", Onboarder.digits 2, plain ":", Onboarder.digits 2]

def timestampIso : CharRegex :=
  let dash := one (.set false [.char '-', .char '/'])
  cat [boundary, Onboarder.digits 4, dash, Onboarder.digits 2, dash, Onboarder.digits 2,
    one (.set false [.char 'T', .space]), clockTime,
    opt (group (cat [one (.escaped '.'), plus (one .digit)])),
    opt (group (alt (plain "Z") (cat [one (.set false [.char '+', .char '-']), Onboarder.digits 2,
      opt (plain ":"), Onboarder.digits 2]))), boundary]

def timestampSyslog : CharRegex :=
  cat [boundary, group (anyOf ["Jan", "Feb", "Mar", "Apr", "May", "Jun", "Jul", "Aug", "Sep", "Oct",
    "Nov", "Dec"]), Onboarder.spaces, upToMax (one .digit) 1 2, Onboarder.spaces, clockTime,
    boundary]

def ipPort : CharRegex :=
  cat [capture "1" false Onboarder.ip, one (.set false [.char ':', .char '/']),
    capture "2" false Onboarder.port]

def quote : CharRegex := opt (one (.set false [.char '"', .char '\'']))

def kvNum : CharRegex :=
  cat [capture "1" false (cat [boundary, group (anyOf ["sessionid", "session_id", "logid",
      "sentbyte", "rcvdbyte", "sentpkt", "rcvdpkt", "duration", "bytes", "cn1", "cn2", "cn3",
      "eventtime", "tracker"]), plain "=", star (one .space), quote]),
    plus (one .digit), capture "2" false quote]

def pureNum : CharRegex := cat [boundary, rep (one .digit) 3 none false, boundary]

end LogMasker

/-- The expression of a pass. -/
def MaskPass.regex : MaskPass → CharRegex
  | url => LogMasker.urlText
  | uuid => LogMasker.uuidText
  | hex => alt LogMasker.hexNumber LogMasker.bareHash
  | timestampIso => LogMasker.timestampIso
  | timestampSyslog => LogMasker.timestampSyslog
  | ipPort => LogMasker.ipPort
  | ip => cat [boundary, Onboarder.ip, boundary]
  | kvNum => LogMasker.kvNum
  | pureNum => LogMasker.pureNum

namespace LogMasker

/-- The successive matches of an expression. -/
def matchesOf (tables : CharTables) (r : CharRegex) : CompiledMatches :=
  pieces (Atom.accepts tables) tables.word r 0 []

/-- The masker with the matches that the crate documents. -/
def ofTables (tables : CharTables) : LogMasker where
  reSyslogTag := matchesOf tables syslogTag
  reIpPort := matchesOf tables ipPort
  reIp := matchesOf tables (MaskPass.regex .ip)
  reTimestampIso := matchesOf tables timestampIso
  reTimestampSyslog := matchesOf tables timestampSyslog
  reHex := matchesOf tables (MaskPass.regex .hex)
  reUuid := matchesOf tables uuidText
  reUrl := matchesOf tables urlText
  reKvNum := matchesOf tables kvNum
  rePureNum := matchesOf tables pureNum

/-- The expressions of all patterns. -/
def expressions : List CharRegex := syslogTag :: MaskPass.all.map MaskPass.regex

/-- The crate compiles each pattern into the successive matches of its expression. -/
def Compiles (regex : String → Option CompiledMatches) (tables : CharTables) : Prop :=
  ∀ r ∈ expressions, regex (r.text id) = some (matchesOf tables r)

end LogMasker

end Ulpf.Ai.Drain
