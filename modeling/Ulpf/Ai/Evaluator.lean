import Ulpf.Ai.Envelope
import Ulpf.Library.Binary64
import Ulpf.Library.Grouping

/-!
# The accuracy audit

The evaluator reads a ground truth off each of the first 1000 logs of the corpus, lets an engine
parse it and a clustering place it, and counts what agrees. The two closures keep a state of their
own and may panic, and so may the slice that cuts the tag of an ASA line.
-/

namespace Ulpf.Ai
open Ulpf.Library Ulpf.Library.Binary64 Ulpf.Core
open Ulpf.Integrity (Bytes Hash asBytes)

/-! ### The ground truth -/

/-- `extract_ground_truth`: the vendor, the template and the expected action. -/
def extractGroundTruth (log : String) : Option (String × String × Option String) :=
  let raw := log.toList
  if contains raw "%ASA-" then
    let tag := match findFrom "%ASA-".toList raw with
      | some rest =>
        (sliceTo rest ((findPos (· == ':') rest).getD 15)).map fun t => String.ofList (trim t)
      | none => some "%ASA"
    let action :=
      if contains raw "Built" || contains raw "permit" then some "Allowed"
      else if contains raw "Deny" || contains raw "drop" then some "Dropped"
      else if contains raw "Teardown" then some "Allowed"
      else none
    tag.map fun tag => ("Cisco", tag, action)
  else if contains raw "devname=" || contains raw "type=\"traffic\"" || contains raw "logid=" then
    let action :=
      if contains raw "action=\"accept\"" || contains raw "action=accept" then some "Allowed"
      else if contains raw "action=\"deny\"" || contains raw "action=deny" ||
          contains raw "action=\"drop\"" then some "Dropped"
      else none
    some ("Fortinet", "fortigate_traffic", action)
  else if contains raw ",TRAFFIC," || contains raw ",THREAT," then
    let action :=
      if contains raw ",allow," then some "Allowed"
      else if contains raw ",deny," || contains raw ",drop," then some "Dropped"
      else none
    some ("Palo Alto", "panos_traffic", action)
  else if startsWith raw "\x7b" || contains raw "\"event_type\"" then
    let action := if contains raw "\"alert\"" then some "Blocked" else some "Allowed"
    let sub := if contains raw "\"alert\"" then "suricata_alert" else "suricata_flow"
    some ("Suricata", sub, action)
  else if contains raw "filterlog[" || contains raw "filterlog:" then
    let action :=
      if contains raw ",pass," then some "Allowed"
      else if contains raw ",block," then some "Blocked"
      else none
    some ("pfSense", "pfsense_filterlog", action)
  else some ("Unknown", "unknown_template", none)

/-- A line whose first ASA tag no colon ends, and that cannot be cut 15 bytes behind the start of
the tag. -/
def UntaggedCut (log : String) : Prop :=
  ∃ rest, findFrom "%ASA-".toList log.toList = some rest ∧ ':' ∉ rest ∧ ¬IsCharBoundary rest 15

lemma isCharBoundary_findPos {p : Char → Bool} {s : Text} {n : ℕ} (h : findPos p s = some n) :
    IsCharBoundary s n := by
  rcases exists_first_cut p s with hnone | ⟨before, c, after, rfl, hbefore, hc⟩
  · rw [findPos_eq_none hnone] at h
    cases h
  · rw [findPos_append_cons hbefore hc] at h
    cases h
    exact ⟨before, List.prefix_append _ _, rfl⟩

/-- The one slice is that of an ASA tag; a colon behind the tag is a place to cut at. -/
lemma isSome_extractGroundTruth_iff (log : String) :
    (extractGroundTruth log).isSome ↔ ¬UntaggedCut log := by
  unfold extractGroundTruth
  dsimp only
  by_cases hasa : contains log.toList "%ASA-" = true
  · rw [if_pos hasa, Option.isSome_map]
    obtain ⟨rest, hrest⟩ := Option.isSome_iff_exists.mp hasa
    rw [hrest]
    dsimp only
    rw [Option.isSome_map, isSome_sliceTo_iff]
    have hcut : UntaggedCut log ↔ ':' ∉ rest ∧ ¬IsCharBoundary rest 15 := by
      constructor
      · rintro ⟨other, hother, hplain⟩
        rw [hrest] at hother
        cases hother
        exact hplain
      · exact fun h => ⟨rest, hrest, h⟩
    rw [hcut, not_and_not_right]
    cases hpos : findPos (· == ':') rest with
    | some n =>
      have hcolon : ':' ∈ rest := by
        by_contra hnone
        have hfalse : findPos (· == ':') rest = none :=
          findPos_eq_none fun c hc => by simpa using fun h : c = ':' => hnone (h ▸ hc)
        rw [hfalse] at hpos
        cases hpos
      exact iff_of_true (isCharBoundary_findPos hpos) fun hnone => absurd hcolon hnone
    | none =>
      have hcolon : ':' ∉ rest := by
        intro hmem
        obtain ⟨before, after, rfl, hbefore⟩ := List.eq_append_cons_of_mem hmem
        have hfirst : ∀ c ∈ before, (c == ':') = false := by
          intro c hc
          simpa using fun h : c = ':' => hbefore (h ▸ hc)
        rw [findPos_append_cons hfirst (beq_self_eq_true ':')] at hpos
        cases hpos
      exact ⟨fun h _ => h, fun h => h hcolon⟩
  · rw [if_neg hasa]
    have hnone : ¬UntaggedCut log := by
      rintro ⟨rest, hrest, -⟩
      exact hasa (Option.isSome_iff_exists.mpr ⟨rest, hrest⟩)
    refine iff_of_true ?_ hnone
    split_ifs <;> rfl

/-! ### The audit -/

/-- The counters of `audit_accuracy`. -/
structure AuditCounters where
  vendorCorrect : ℕ := 0
  shaMatches : ℕ := 0
  uuidValid : ℕ := 0
  srcIpCorrect : ℕ := 0
  dstIpCorrect : ℕ := 0
  srcPortCorrect : ℕ := 0
  dstPortCorrect : ℕ := 0
  protoCorrect : ℕ := 0
  dispositionCorrect : ℕ := 0
  templateCorrect : ℕ := 0
  clusterToGtMap : Grouping.Tally ℕ String := ∅

def vendorIsCorrect (activity : NetworkActivity) (gtVendor : String) : Bool :=
  let parsedVendor := toAsciiLowercase activity.metadata.product.vendorName
  let expectedVendor := toAsciiLowercase gtVendor
  contains parsedVendor.toList expectedVendor || contains expectedVendor.toList parsedVendor

def ipIsCorrect (raw : String) (endpoint : Endpoint) : Bool :=
  match endpoint.ip with
  | some ip => contains raw.toList ip
  | none => false

def portIsCorrect (raw : String) (endpoint : Endpoint) : Bool :=
  match endpoint.port with
  | some port => decide (1 ≤ port.toNat) && contains raw.toList (toString port)
  | none => false

def protoIsCorrect (raw : String) (activity : NetworkActivity) : Bool :=
  match activity.connectionInfo.protocolName with
  | some proto =>
    let protoUpper := toAsciiUppercase proto
    contains (toAsciiUppercase raw).toList protoUpper || protoUpper == "IP"
  | none => false

def dispositionIsCorrect (activity : NetworkActivity) (gtAction : Option String) : Bool :=
  match gtAction with
  | some expected => activity.disposition == expected
  | none => activity.disposition != "" && activity.disposition != "Unknown"

section Audit

variable {P C : Type*} (rt : Runtime) (uuidParses : String → Bool)
  (parseFn : P → String → Option (NetworkActivity × P))
  (clusterFn : C → String → Option ((ℕ × String) × C))

def AuditCounters.count (t : AuditCounters) (raw : String) (gt : String × String × Option String)
    (activity : NetworkActivity) (cluster : ℕ × String) : AuditCounters where
  clusterToGtMap := t.clusterToGtMap.add (cluster.1, gt.2.1)
  templateCorrect :=
    t.templateCorrect + (contains cluster.2.toList "<*>" || cluster.2 != "").toNat
  vendorCorrect := t.vendorCorrect + (vendorIsCorrect activity gt.1).toNat
  shaMatches :=
    t.shaMatches + (activity.metadata.rawHash == computeSha256 rt (asBytes raw)).toNat
  uuidValid := t.uuidValid + (uuidParses activity.metadata.eventId).toNat
  srcIpCorrect := t.srcIpCorrect + (ipIsCorrect raw activity.srcEndpoint).toNat
  dstIpCorrect := t.dstIpCorrect + (ipIsCorrect raw activity.dstEndpoint).toNat
  srcPortCorrect := t.srcPortCorrect + (portIsCorrect raw activity.srcEndpoint).toNat
  dstPortCorrect := t.dstPortCorrect + (portIsCorrect raw activity.dstEndpoint).toNat
  protoCorrect := t.protoCorrect + (protoIsCorrect raw activity).toNat
  dispositionCorrect := t.dispositionCorrect + (dispositionIsCorrect activity gt.2.2).toNat

/-- The states of the two closures, and the counters. -/
structure Auditor (P C : Type*) where
  parser : P
  clusterer : C
  counters : AuditCounters

/-- The body of the audit loop, in the order of the source. -/
def Auditor.step (a : Auditor P C) (raw : String) : Option (Auditor P C) :=
  match extractGroundTruth raw with
  | none => none
  | some gt =>
    match parseFn a.parser raw with
    | none => none
    | some (activity, parser) =>
      match clusterFn a.clusterer raw with
      | none => none
      | some (cluster, clusterer) =>
        some ⟨parser, clusterer, a.counters.count rt uuidParses raw gt activity cluster⟩

/-- `(correct as f64 / audit_count as f64) * 100.0` -/
def pct (correct auditCount : ℕ) : ℚ := nearest (divide correct auditCount * 100)

/-- The percentages of an audit of at least one log; of an empty corpus they are no numbers. The
action inviolability does not depend on the corpus. -/
structure AccuracyAuditSummary where
  totalAudited : ℕ
  vendorClassificationAccuracyPct : ℚ
  groupingAccuracyGaPct : ℚ
  templateAccuracyTaPct : ℚ
  fieldExtractionF1Pct : ℚ
  srcIpAccuracyPct : ℚ
  dstIpAccuracyPct : ℚ
  srcPortAccuracyPct : ℚ
  dstPortAccuracyPct : ℚ
  protocolAccuracyPct : ℚ
  dispositionAccuracyPct : ℚ
  losslessSha256MatchPct : ℚ
  validUuidV7Pct : ℚ

def AuditCounters.summary (t : AuditCounters) (auditCount : ℕ) : AccuracyAuditSummary :=
  let gaCorrectTotal := t.clusterToGtMap.majoritySum
  let srcIpPct := pct t.srcIpCorrect auditCount
  let dstIpPct := pct t.dstIpCorrect auditCount
  let srcPortPct := pct t.srcPortCorrect auditCount
  let dstPortPct := pct t.dstPortCorrect auditCount
  let protoPct := pct t.protoCorrect auditCount
  { totalAudited := auditCount
    vendorClassificationAccuracyPct := pct t.vendorCorrect auditCount
    groupingAccuracyGaPct := pct gaCorrectTotal auditCount
    templateAccuracyTaPct := pct t.templateCorrect auditCount
    fieldExtractionF1Pct :=
      divide (nearest (nearest (nearest (nearest (srcIpPct + dstIpPct) + srcPortPct) +
        dstPortPct) + protoPct)) 5
    srcIpAccuracyPct := srcIpPct
    dstIpAccuracyPct := dstIpPct
    srcPortAccuracyPct := srcPortPct
    dstPortAccuracyPct := dstPortPct
    protocolAccuracyPct := protoPct
    dispositionAccuracyPct := pct t.dispositionCorrect auditCount
    losslessSha256MatchPct := pct t.shaMatches auditCount
    validUuidV7Pct := pct t.uuidValid auditCount }

/-- `corpus.iter().take(audit_count)` with `audit_count = 1000.min(corpus.len())` -/
def audited (corpus : List String) : List String := corpus.take (min 1000 corpus.length)

def auditAccuracy (parser : P) (clusterer : C) (corpus : List String) :
    Option AccuracyAuditSummary :=
  (run (Auditor.step rt uuidParses parseFn clusterFn) ⟨parser, clusterer, {}⟩ (audited corpus)).map
    fun a => a.counters.summary (min 1000 corpus.length)

/-! ### Percentages -/

lemma pct_self {n : ℕ} (hn : 0 < n) : pct n n = 100 := by
  have hone : nearest (1 * 100) = 100 := by decide +kernel
  rw [pct, divide_self (by exact_mod_cast hn), hone]

lemma divide_natCast_nonneg (k n : ℕ) : 0 ≤ divide k n := by
  apply nearest_nonneg
  positivity

lemma divide_natCast_mono {k k' : ℕ} (n : ℕ) (h : k ≤ k') :
    divide (k : ℚ) n ≤ divide (k' : ℚ) n := by
  apply nearest_mono_of_nonneg (by positivity)
  gcongr

lemma pct_mono {k k' : ℕ} (n : ℕ) (h : k ≤ k') : pct k n ≤ pct k' n := by
  have hdivide := divide_natCast_mono n h
  have hnonneg := divide_natCast_nonneg k n
  apply nearest_mono_of_nonneg
  · positivity
  · linarith

/-- Of at most 1000 logs, one that is wrong keeps the percentage under 100. -/
lemma pct_lt_hundred {k n : ℕ} (hk : k < n) (hn : n ≤ 1000) : pct k n < 100 := by
  have hlast : nearest (nearest (999 / 1000) * 100) < 100 := by decide +kernel
  have hshare : (k : ℚ) / n ≤ 999 / 1000 := by
    have hpos : (0 : ℚ) < n := by exact_mod_cast Nat.zero_lt_of_lt hk
    have hcast : (k : ℚ) + 1 ≤ n := by exact_mod_cast hk
    have hbound : (n : ℚ) ≤ 1000 := by exact_mod_cast hn
    rw [div_le_div_iff₀ hpos (by norm_num)]
    linarith
  have hdivide : divide k n ≤ nearest (999 / 1000) :=
    nearest_mono_of_nonneg (by positivity) hshare
  have hnonneg := divide_natCast_nonneg k n
  refine lt_of_le_of_lt ?_ hlast
  apply nearest_mono_of_nonneg
  · positivity
  · linarith

lemma pct_eq_hundred_iff {k n : ℕ} (hk : k ≤ n) (hpos : 0 < n) (hn : n ≤ 1000) :
    pct k n = 100 ↔ k = n := by
  constructor
  · intro h
    by_contra hne
    exact (pct_lt_hundred (lt_of_le_of_ne hk hne) hn).ne h
  · rintro rfl
    exact pct_self hpos

/-! ### Runs of the audit -/

/-- What a closure answers to one log after another. -/
def answers {S A B : Type*} (f : S → A → Option (B × S)) : S → List A → Option (List B)
  | _, [] => some []
  | s, a :: as => (f s a).bind fun out => (answers f out.2 as).map (out.1 :: ·)

/-- The clusters of the logs, with the templates of their ground truths. -/
def groupings (clusters : List (ℕ × String)) (truths : List (String × String × Option String)) :
    List (ℕ × String) :=
  List.zipWith (fun cluster gt => (cluster.1, gt.2.1)) clusters truths

/-- What the counters hold after a run, in terms of the answers of the closures. -/
structure Audits (a b : Auditor P C) (logs : List String)
    (truths : List (String × String × Option String)) (clusters : List (ℕ × String))
    (events : List NetworkActivity) : Prop where
  extracted : logs.map extractGroundTruth = truths.map some
  clustered : answers clusterFn a.clusterer logs = some clusters
  parsed : answers parseFn a.parser logs = some events
  grouped : b.counters.clusterToGtMap =
    (groupings clusters truths).foldl Grouping.Tally.add a.counters.clusterToGtMap
  shaMatches : b.counters.shaMatches = a.counters.shaMatches +
    (events.zip logs).countP fun e => e.1.metadata.rawHash == computeSha256 rt (asBytes e.2)

variable {rt uuidParses parseFn clusterFn}

lemma isSome_run_auditor_iff (a : Auditor P C) (logs : List String) :
    (run (Auditor.step rt uuidParses parseFn clusterFn) a logs).isSome ↔
      (∀ raw ∈ logs, (extractGroundTruth raw).isSome) ∧ (answers parseFn a.parser logs).isSome ∧
        (answers clusterFn a.clusterer logs).isSome := by
  induction logs generalizing a with
  | nil => simp [answers]
  | cons raw logs ih =>
    rw [run_cons, List.forall_mem_cons, answers, answers, Auditor.step]
    cases hgt : extractGroundTruth raw with
    | none => simp
    | some gt =>
      cases hparse : parseFn a.parser raw with
      | none => simp
      | some parsed =>
        cases hcluster : clusterFn a.clusterer raw with
        | none => simp
        | some clustered =>
          simp only [Option.bind_some, Option.isSome_some, true_and, Option.isSome_map]
          exact ih _

lemma exists_audits {a b : Auditor P C} {logs : List String}
    (hrun : run (Auditor.step rt uuidParses parseFn clusterFn) a logs = some b) :
    ∃ truths clusters events, Audits rt parseFn clusterFn a b logs truths clusters events := by
  induction logs generalizing a with
  | nil =>
    cases hrun
    exact ⟨[], [], [], rfl, rfl, rfl, rfl, rfl⟩
  | cons raw logs ih =>
    rw [run_cons, Auditor.step] at hrun
    cases hgt : extractGroundTruth raw with
    | none => simp [hgt] at hrun
    | some gt =>
      cases hparse : parseFn a.parser raw with
      | none => simp [hgt, hparse] at hrun
      | some parsed =>
        cases hcluster : clusterFn a.clusterer raw with
        | none => simp [hgt, hparse, hcluster] at hrun
        | some clustered =>
          simp only [hgt, hparse, hcluster, Option.bind_some] at hrun
          obtain ⟨truths, clusters, events, h⟩ := ih hrun
          refine ⟨gt :: truths, clustered.1 :: clusters, parsed.1 :: events, ?_, ?_, ?_, ?_, ?_⟩
          · rw [List.map_cons, hgt, h.extracted, List.map_cons]
          · rw [answers, hcluster, Option.bind_some, h.clustered, Option.map_some]
          · rw [answers, hparse, Option.bind_some, h.parsed, Option.map_some]
          · exact h.grouped
          · rw [h.shaMatches, List.zip_cons_cons, List.countP_cons]
            dsimp only [AuditCounters.count]
            rw [Nat.add_assoc, Nat.add_comm (Bool.toNat _)]
            cases parsed.1.metadata.rawHash == computeSha256 rt (asBytes raw) with
            | false => rfl
            | true => rfl

lemma length_answers {S A B : Type*} {f : S → A → Option (B × S)} {s : S} {as : List A}
    {bs : List B} (h : answers f s as = some bs) : bs.length = as.length := by
  induction as generalizing s bs with
  | nil =>
    cases h
    rfl
  | cons a as ih =>
    obtain ⟨out, -, h⟩ := Option.bind_eq_some_iff.mp h
    obtain ⟨rest, hrest, rfl⟩ := Option.map_eq_some_iff.mp h
    rw [List.length_cons, List.length_cons, ih hrest]

lemma forall₂_answers {S A B : Type*} {f : S → A → Option (B × S)} {Q : A → B → Prop}
    (hQ : ∀ s a b s', f s a = some (b, s') → Q a b) {s : S} {as : List A} {bs : List B}
    (h : answers f s as = some bs) : List.Forall₂ Q as bs := by
  induction as generalizing s bs with
  | nil =>
    cases h
    exact List.Forall₂.nil
  | cons a as ih =>
    obtain ⟨out, hout, h⟩ := Option.bind_eq_some_iff.mp h
    obtain ⟨rest, hrest, rfl⟩ := Option.map_eq_some_iff.mp h
    exact List.Forall₂.cons (hQ _ _ _ _ hout) (ih hrest)

lemma length_audited (corpus : List String) :
    (audited corpus).length = min 1000 corpus.length := by
  rw [audited, List.length_take, Nat.min_assoc, Nat.min_self]

lemma length_audited_pos {corpus : List String} (h : corpus ≠ []) :
    0 < (audited corpus).length := by
  have hpos := List.length_pos_iff.mpr h
  rw [length_audited]
  omega

lemma exists_audits_of_summary {parser : P} {clusterer : C} {corpus : List String}
    {summary : AccuracyAuditSummary}
    (h : auditAccuracy rt uuidParses parseFn clusterFn parser clusterer corpus = some summary) :
    ∃ truths clusters events,
      (audited corpus).map extractGroundTruth = truths.map some ∧
      answers clusterFn clusterer (audited corpus) = some clusters ∧
      answers parseFn parser (audited corpus) = some events ∧
      (groupings clusters truths).length = (audited corpus).length ∧
      summary.groupingAccuracyGaPct =
        pct (Grouping.score (groupings clusters truths)) (audited corpus).length ∧
      summary.losslessSha256MatchPct = pct ((events.zip (audited corpus)).countP fun e =>
        e.1.metadata.rawHash == computeSha256 rt (asBytes e.2)) (audited corpus).length := by
  obtain ⟨b, hrun, rfl⟩ := Option.map_eq_some_iff.mp h
  obtain ⟨truths, clusters, events, hb⟩ := exists_audits hrun
  refine ⟨truths, clusters, events, hb.extracted, hb.clustered, hb.parsed, ?_, ?_, ?_⟩
  · have htruths := congrArg List.length hb.extracted
    rw [List.length_map, List.length_map] at htruths
    rw [groupings, List.length_zipWith, length_answers hb.clustered, ← htruths, Nat.min_self]
  · rw [← Grouping.Tally.majoritySum_tally, length_audited]
    exact congrArg (fun m => pct (Grouping.Tally.majoritySum m) _) hb.grouped
  · have hsha := hb.shaMatches
    rw [Nat.zero_add] at hsha
    rw [length_audited, ← hsha]
    rfl

lemma pct_score_eq_hundred_iff {corpus : List String} (hne : corpus ≠ [])
    {pairs : List (ℕ × String)} (hlength : pairs.length = (audited corpus).length) :
    pct (Grouping.score pairs) (audited corpus).length = 100 ↔
      ∀ p ∈ pairs, ∀ q ∈ pairs, p.1 = q.1 → p.2 = q.2 := by
  have hle := Grouping.score_le_length pairs
  have hbound : (audited corpus).length ≤ 1000 := by
    rw [length_audited]
    exact Nat.min_le_left _ _
  rw [hlength] at hle
  rw [pct_eq_hundred_iff hle (length_audited_pos hne) hbound, ← hlength,
    Grouping.score_eq_length_iff]

end Audit

/-! ### The two engines -/

section Engines

variable (rt : Runtime) {Miner C : Type*}

/-- The `parse_fn` of the baseline, with the readings of one call after another. -/
def baselineParse (readings : ℕ → Readings) (n : ℕ) (raw : String) :
    Option (NetworkActivity × ℕ) :=
  (parseLossless (universalParser rt (readings n)) raw).map fun activity => (activity, n + 1)

/-- The `cluster_fn` of the baseline. -/
def baselineCluster (_ : Unit) (raw : String) : Option ((ℕ × String) × Unit) :=
  (extractGroundTruth raw).bind fun gt =>
    (computeSignatureHash gt.2.1).map fun sigHash => (((sigHash % 1000).toNat, gt.2.1), ())

/-- The `parse_fn` of the tiered pipeline. -/
def tieredParse (addLog : Miner → String → ClusterResult × Miner) (readings : ℕ → Readings)
    (ringBufferFree : ℕ → Bool) (s : ℕ × TieredPipeline Miner) (raw : String) :
    Option (NetworkActivity × (ℕ × TieredPipeline Miner)) :=
  let r := readings s.1
  (s.2.process (universalParser rt r) addLog ⟨raw, r.nowMs, ringBufferFree s.1⟩).bind fun out =>
    out.1.map fun activity => (activity, (s.1 + 1, out.2))

variable {rt}

lemma isSome_answers_iff {S A B : Type*} {f : S → A → Option (B × S)} {Q : A → Prop}
    (h : ∀ s a, (f s a).isSome ↔ Q a) (s : S) (as : List A) :
    (answers f s as).isSome ↔ ∀ a ∈ as, Q a := by
  induction as generalizing s with
  | nil => simp [answers]
  | cons a as ih =>
    rw [List.forall_mem_cons, answers, ← h s a]
    cases f s a with
    | none => simp
    | some out =>
      rw [Option.bind_some, Option.isSome_map, ih]
      simp

lemma rawHash_of_baselineParse {readings : ℕ → Readings} {n m : ℕ} {raw : String}
    {activity : NetworkActivity} (h : baselineParse rt readings n raw = some (activity, m)) :
    activity.metadata.rawHash = computeSha256 rt (asBytes raw) := by
  obtain ⟨event, hevent, heq⟩ := Option.map_eq_some_iff.mp h
  cases heq
  exact (ensures_enveloped.parseLossless activity hevent).rawHash

lemma rawHash_of_tieredParse {addLog : Miner → String → ClusterResult × Miner}
    {readings : ℕ → Readings} {ringBufferFree : ℕ → Bool} {s t : ℕ × TieredPipeline Miner}
    {raw : String} {activity : NetworkActivity}
    (h : tieredParse rt addLog readings ringBufferFree s raw = some (activity, t)) :
    activity.metadata.rawHash = computeSha256 rt (asBytes raw) := by
  obtain ⟨out, hout, h⟩ := Option.bind_eq_some_iff.mp h
  obtain ⟨event, hevent, heq⟩ := Option.map_eq_some_iff.mp h
  cases heq
  exact (TieredPipeline.ensures_process ensures_enveloped hout activity hevent).rawHash

lemma lossless_of_rawHash {P : Type*} {uuidParses : String → Bool}
    {parseFn : P → String → Option (NetworkActivity × P)}
    {clusterFn : C → String → Option ((ℕ × String) × C)} {parser : P} {clusterer : C}
    {corpus : List String} {summary : AccuracyAuditSummary}
    (hraw : ∀ s raw activity t, parseFn s raw = some (activity, t) →
      activity.metadata.rawHash = computeSha256 rt (asBytes raw))
    (hne : corpus ≠ [])
    (h : auditAccuracy rt uuidParses parseFn clusterFn parser clusterer corpus = some summary) :
    summary.losslessSha256MatchPct = 100 := by
  obtain ⟨-, -, events, -, -, hparsed, -, -, hsha⟩ := exists_audits_of_summary h
  have hall := forall₂_answers hraw hparsed
  have hcount : ((events.zip (audited corpus)).countP fun e =>
      e.1.metadata.rawHash == computeSha256 rt (asBytes e.2)) = (audited corpus).length := by
    have hlength : (events.zip (audited corpus)).length = (audited corpus).length := by
      rw [List.length_zip, hall.length_eq, Nat.min_self]
    rw [← hlength, List.countP_eq_length]
    intro e he
    have hzip := List.forall₂_iff_zip.mp hall.flip
    exact beq_iff_eq.mpr (hzip.2 he)
  rw [hsha, hcount, pct_self (length_audited_pos hne)]

/-! ### An audit of two logs -/

def auditSample : List String := ["filterlog[1]: a", "hello"]

/-- The sample needs nothing of the libraries but the digest. -/
def auditRuntime : Runtime where
  sha256 := Integrity.sha2
  isAlphanumeric := Char.isAlphanum
  chrono := ⟨fun _ _ => none, fun _ => none⟩
  json := ⟨fun _ => .error "expected value", fun _ => ""⟩
  captures _ _ := none

def noReadings (_ : ℕ) : Readings := ⟨"", 0, 0⟩

lemma auditSample_returns {raw : String} (h : raw ∈ auditSample) :
    (extractGroundTruth raw).isSome ∧ ¬Panics (classify raw) raw ∧ SignatureSliceable raw := by
  rw [auditSample, List.mem_cons, List.mem_singleton] at h
  rcases h with rfl | rfl
  · have hformat : classify "filterlog[1]: a" = .pfSense := by decide +kernel
    refine ⟨by decide +kernel, ?_, isSome_computeSignatureHash_iff.mp (by decide +kernel)⟩
    rw [hformat]
    exact fun h => by cases h.1
  · have hformat : classify "hello" = .unknown := by decide +kernel
    refine ⟨by decide +kernel, ?_, isSome_computeSignatureHash_iff.mp (by decide +kernel)⟩
    rw [hformat]
    exact not_panics_unknown

lemma exists_audit_sample {clusterFn : C → String → Option ((ℕ × String) × C)} {clusterer : C}
    (h : (answers clusterFn clusterer auditSample).isSome) :
    ∃ summary, auditAccuracy auditRuntime (fun _ => true) (baselineParse auditRuntime noReadings)
      clusterFn 0 clusterer auditSample = some summary := by
  rw [← Option.isSome_iff_exists, auditAccuracy, Option.isSome_map, isSome_run_auditor_iff]
  refine ⟨fun raw hraw => (auditSample_returns hraw).1, ?_, h⟩
  have hparse : ∀ n raw, (baselineParse auditRuntime noReadings n raw).isSome ↔
      ¬Panics (classify raw) raw := by
    intro n raw
    rw [baselineParse, Option.isSome_map, isSome_parseLossless_iff]
  rw [isSome_answers_iff hparse]
  exact fun raw hraw => (auditSample_returns hraw).2.1

lemma mem_groupings_baseline {logs : List String}
    {truths : List (String × String × Option String)} {clusters : List (ℕ × String)}
    (hextracted : logs.map extractGroundTruth = truths.map some)
    (hclustered : answers baselineCluster () logs = some clusters) (p : ℕ × String) :
    p ∈ groupings clusters truths ↔ ∃ raw ∈ logs, ∃ gt sigHash, extractGroundTruth raw = some gt ∧
      computeSignatureHash gt.2.1 = some sigHash ∧ p = ((sigHash % 1000).toNat, gt.2.1) := by
  induction logs generalizing truths clusters with
  | nil =>
    cases hclustered
    simp [groupings]
  | cons raw logs ih =>
    cases truths with
    | nil => cases hextracted
    | cons gt truths =>
      rw [List.map_cons, List.map_cons, List.cons.injEq] at hextracted
      obtain ⟨out, hout, hclustered⟩ := Option.bind_eq_some_iff.mp hclustered
      obtain ⟨rest, hrest, rfl⟩ := Option.map_eq_some_iff.mp hclustered
      rw [baselineCluster, hextracted.1, Option.bind_some] at hout
      obtain ⟨sigHash, hsig, rfl⟩ := Option.map_eq_some_iff.mp hout
      rw [groupings, List.zipWith_cons_cons, List.mem_cons, List.exists_mem_cons_iff]
      refine or_congr ?_ (ih hextracted.2 hrest)
      constructor
      · rintro rfl
        exact ⟨gt, sigHash, hextracted.1, hsig, rfl⟩
      · rintro ⟨gt', sigHash', hgt, hsig', rfl⟩
        rw [hextracted.1] at hgt
        cases hgt
        rw [hsig] at hsig'
        cases hsig'
        rfl

/-- The audit of the baseline completes unless one of the logs has a tag or a template that cannot
be cut, or is a FortiGate line on which the extractor panics. It then attests every digest; and
since the baseline clusters by a hash of the ground truth itself, its grouping accuracy is 100
exactly when no two templates of the audited logs share a hash. -/
theorem baseline_audit (rt : Runtime) (uuidParses : String → Bool) (readings : ℕ → Readings)
    (corpus : List String) (hne : corpus ≠ []) :
    ((auditAccuracy rt uuidParses (baselineParse rt readings) baselineCluster 0 () corpus).isSome ↔
      ∀ raw ∈ audited corpus, ¬UntaggedCut raw ∧ ¬Panics (classify raw) raw ∧
        ∀ gt, extractGroundTruth raw = some gt → SignatureSliceable gt.2.1) ∧
    ∀ summary,
      auditAccuracy rt uuidParses (baselineParse rt readings) baselineCluster 0 () corpus =
          some summary →
        summary.losslessSha256MatchPct = 100 ∧
        (summary.groupingAccuracyGaPct = 100 ↔
          ∀ raw ∈ audited corpus, ∀ raw' ∈ audited corpus, ∀ gt gt' sigHash sigHash',
            extractGroundTruth raw = some gt → extractGroundTruth raw' = some gt' →
            computeSignatureHash gt.2.1 = some sigHash →
            computeSignatureHash gt'.2.1 = some sigHash' →
            sigHash % 1000 = sigHash' % 1000 → gt.2.1 = gt'.2.1) := by
  constructor
  · have hparse : ∀ n raw,
        (baselineParse rt readings n raw).isSome ↔ ¬Panics (classify raw) raw := by
      intro n raw
      rw [baselineParse, Option.isSome_map, isSome_parseLossless_iff]
    have hcluster : ∀ u raw, (baselineCluster u raw).isSome ↔
        ∃ gt, extractGroundTruth raw = some gt ∧ SignatureSliceable gt.2.1 := by
      intro u raw
      rw [baselineCluster]
      cases extractGroundTruth raw with
      | none => simp
      | some gt => simp [← isSome_computeSignatureHash_iff]
    rw [auditAccuracy, Option.isSome_map, isSome_run_auditor_iff, isSome_answers_iff hparse,
      isSome_answers_iff hcluster]
    constructor
    · rintro ⟨hextract, hparses, hclusters⟩ raw hraw
      refine ⟨(isSome_extractGroundTruth_iff raw).mp (hextract raw hraw), hparses raw hraw, ?_⟩
      intro gt hgt
      obtain ⟨other, hother, hsliceable⟩ := hclusters raw hraw
      rw [hgt] at hother
      cases hother
      exact hsliceable
    · intro h
      refine ⟨fun raw hraw => ?_, fun raw hraw => (h raw hraw).2.1, fun raw hraw => ?_⟩
      · exact (isSome_extractGroundTruth_iff raw).mpr (h raw hraw).1
      · obtain ⟨gt, hgt⟩ := Option.isSome_iff_exists.mp
          ((isSome_extractGroundTruth_iff raw).mpr (h raw hraw).1)
        exact ⟨gt, hgt, (h raw hraw).2.2 gt hgt⟩
  · intro summary h
    refine ⟨lossless_of_rawHash (fun _ _ _ _ => rawHash_of_baselineParse) hne h, ?_⟩
    obtain ⟨truths, clusters, -, hextracted, hclustered, -, hlength, hga, -⟩ :=
      exists_audits_of_summary h
    have hmem := mem_groupings_baseline hextracted hclustered
    rw [hga, pct_score_eq_hundred_iff hne hlength]
    constructor
    · intro hpure raw hraw raw' hraw' gt gt' sigHash sigHash' hgt hgt' hsig hsig' hsame
      exact hpure _ ((hmem _).mpr ⟨raw, hraw, gt, sigHash, hgt, hsig, rfl⟩) _
        ((hmem _).mpr ⟨raw', hraw', gt', sigHash', hgt', hsig', rfl⟩) (congrArg UInt64.toNat hsame)
    · intro hdistinct p hp q hq hcluster
      obtain ⟨raw, hraw, gt, sigHash, hgt, hsig, rfl⟩ := (hmem p).mp hp
      obtain ⟨raw', hraw', gt', sigHash', hgt', hsig', rfl⟩ := (hmem q).mp hq
      exact hdistinct raw hraw raw' hraw' gt gt' sigHash sigHash' hgt hgt' hsig hsig'
        (UInt64.toNat_inj.mp hcluster)

theorem baseline_audit_sample :
    ∃ summary, auditAccuracy auditRuntime (fun _ => true) (baselineParse auditRuntime noReadings)
        baselineCluster 0 () auditSample = some summary ∧
      summary.losslessSha256MatchPct = 100 := by
  have hclusters : (answers baselineCluster () auditSample).isSome := by decide +kernel
  obtain ⟨summary, h⟩ := exists_audit_sample hclusters
  obtain ⟨-, hsummary⟩ := baseline_audit auditRuntime (fun _ => true) noReadings auditSample
    (List.cons_ne_nil _ _)
  exact ⟨summary, h, (hsummary summary h).1⟩

/-- Whatever the cache and the miner hold, an audit of the pipeline attests every digest. -/
theorem tiered_audit_lossless (rt : Runtime) (uuidParses : String → Bool)
    (addLog : Miner → String → ClusterResult × Miner) (readings : ℕ → Readings)
    (ringBufferFree : ℕ → Bool) (clusterFn : C → String → Option ((ℕ × String) × C))
    (s : ℕ × TieredPipeline Miner) (clusterer : C) (corpus : List String) (hne : corpus ≠ [])
    (summary : AccuracyAuditSummary)
    (h : auditAccuracy rt uuidParses (tieredParse rt addLog readings ringBufferFree) clusterFn s
      clusterer corpus = some summary) :
    summary.losslessSha256MatchPct = 100 :=
  lossless_of_rawHash (fun _ _ _ _ => rawHash_of_tieredParse) hne h

theorem tiered_audit_lossless_sample :
    let addLog := fun (m : Unit) (line : String) => ((⟨1, line, true⟩ : ClusterResult), m)
    ∃ summary, auditAccuracy auditRuntime (fun _ => true)
        (tieredParse auditRuntime addLog noReadings fun _ => true)
        (fun _ line => some ((1, line), ())) (0, TieredPipeline.new ()) () ["hello"] =
          some summary ∧
      summary.losslessSha256MatchPct = 100 := by
  intro addLog
  have hmem : "hello" ∈ auditSample := by simp [auditSample]
  have hreturns := auditSample_returns hmem
  have hrouted : routedFormat (TieredPipeline.new ()).cache "hello" = classify "hello" := by
    obtain ⟨sigHash, hsig⟩ := Option.isSome_iff_exists.mp
      (isSome_computeSignatureHash_iff.mpr hreturns.2.2)
    rw [routedFormat_of_some hsig]
    exact congrArg (Option.getD · _) (SignatureLruCache.peek_new sigHash)
  obtain ⟨event, p, hprocess⟩ : ∃ event p', (TieredPipeline.new ()).process
      (universalParser auditRuntime (noReadings 0)) addLog ⟨"hello", 0, true⟩ =
        some (some event, p') := by
    rw [process_returns_iff, hrouted]
    exact ⟨hreturns.2.2, hreturns.2.1, fun _ => hreturns.2.1⟩
  have hanswers : (answers (tieredParse auditRuntime addLog noReadings fun _ => true)
      (0, TieredPipeline.new ()) ["hello"]).isSome := by
    rw [answers, tieredParse]
    dsimp only [noReadings] at hprocess ⊢
    rw [hprocess]
    rfl
  have hsummary : (auditAccuracy auditRuntime (fun _ => true)
      (tieredParse auditRuntime addLog noReadings fun _ => true)
      (fun _ line => some ((1, line), ())) (0, TieredPipeline.new ()) () ["hello"]).isSome := by
    rw [auditAccuracy, Option.isSome_map, isSome_run_auditor_iff]
    refine ⟨fun raw hraw => ?_, hanswers, rfl⟩
    cases List.mem_singleton.mp hraw
    exact hreturns.1
  obtain ⟨summary, h⟩ := Option.isSome_iff_exists.mp hsummary
  exact ⟨summary, h, tiered_audit_lossless _ _ _ _ _ _ _ _ _ (List.cons_ne_nil _ _) summary h⟩

end Engines

/-! ### The grouping accuracy -/

section Grouping

variable {P C : Type*}

/-- The grouping accuracy is what the best template for each cluster would get right: no choice of
templates exceeds it, one attains it, and it is 100 exactly when no cluster mixes templates. -/
theorem grouping_accuracy_attained (rt : Runtime) (uuidParses : String → Bool)
    (parseFn : P → String → Option (NetworkActivity × P))
    (clusterFn : C → String → Option ((ℕ × String) × C)) (parser : P) (clusterer : C)
    (corpus : List String) (hne : corpus ≠ []) (summary : AccuracyAuditSummary)
    (h : auditAccuracy rt uuidParses parseFn clusterFn parser clusterer corpus = some summary) :
    ∃ truths clusters,
      (audited corpus).map extractGroundTruth = truths.map some ∧
      answers clusterFn clusterer (audited corpus) = some clusters ∧
      (∀ template, pct (Grouping.agreement (groupings clusters truths) template)
        (audited corpus).length ≤ summary.groupingAccuracyGaPct) ∧
      (∃ template, pct (Grouping.agreement (groupings clusters truths) template)
        (audited corpus).length = summary.groupingAccuracyGaPct) ∧
      (summary.groupingAccuracyGaPct = 100 ↔
        ∀ p ∈ groupings clusters truths, ∀ q ∈ groupings clusters truths,
          p.1 = q.1 → p.2 = q.2) := by
  obtain ⟨truths, clusters, -, hextracted, hclustered, -, hlength, hga, -⟩ :=
    exists_audits_of_summary h
  refine ⟨truths, clusters, hextracted, hclustered, ?_, ?_, ?_⟩
  · intro template
    rw [hga]
    exact pct_mono _ (Grouping.agreement_le_score _ _)
  · obtain ⟨template, htemplate⟩ := Grouping.exists_agreement_eq_score (groupings clusters truths)
    exact ⟨template, by rw [hga, htemplate]⟩
  · rw [hga]
    exact pct_score_eq_hundred_iff hne hlength

/-- Both lines in one cluster. -/
def oneCluster (_ : Unit) (raw : String) : Option ((ℕ × String) × Unit) := some ((0, raw), ())

/-- Each line in a cluster of its own. -/
def ownCluster (n : ℕ) (raw : String) : Option ((ℕ × String) × ℕ) := some ((n, raw), n + 1)

theorem grouping_accuracy_attained_sample :
    ∃ summary, auditAccuracy auditRuntime (fun _ => true) (baselineParse auditRuntime noReadings)
        oneCluster 0 () auditSample = some summary ∧ summary.groupingAccuracyGaPct ≠ 100 := by
  have hone : (answers oneCluster () auditSample).isSome := rfl
  obtain ⟨summary, h⟩ := exists_audit_sample hone
  obtain ⟨truths, clusters, hextracted, hclustered, -, -, hpure⟩ :=
    grouping_accuracy_attained auditRuntime (fun _ => true) _ oneCluster 0 () auditSample
      (List.cons_ne_nil _ _) summary h
  have htruths : (audited auditSample).map extractGroundTruth =
      [("pfSense", "pfsense_filterlog", none), ("Unknown", "unknown_template", none)].map some := by
    decide +kernel
  rw [htruths] at hextracted
  have hsame := List.map_injective_iff.mpr (Option.some_injective _) hextracted
  cases hclustered
  refine ⟨summary, h, fun hga => ?_⟩
  have hmixed := hpure.mp hga (0, "pfsense_filterlog") (by simp [← hsame, groupings])
    (0, "unknown_template") (by simp [← hsame, groupings]) rfl
  simp at hmixed

lemma groupings_map {clusters clusters' : List (ℕ × String)}
    {truths : List (String × String × Option String)} {g : ℕ → ℕ}
    (h : clusters'.map Prod.fst = (clusters.map Prod.fst).map g) :
    groupings clusters' truths = (groupings clusters truths).map (Prod.map g id) := by
  have hids : ∀ cs : List (ℕ × String), groupings cs truths =
      List.zipWith (fun c gt => (c, gt.2.1)) (cs.map Prod.fst) truths := by
    intro cs
    rw [List.zipWith_map_left]
    rfl
  rw [hids, hids, h, List.zipWith_map_left, List.map_zipWith]
  rfl

/-- A clustering that merges clusters of another one is not audited better. -/
theorem grouping_accuracy_coarser {P' C' : Type*} (rt : Runtime) (uuidParses : String → Bool)
    (parseFn : P → String → Option (NetworkActivity × P))
    (clusterFn : C → String → Option ((ℕ × String) × C))
    (parseFn' : P' → String → Option (NetworkActivity × P'))
    (clusterFn' : C' → String → Option ((ℕ × String) × C')) (parser : P) (clusterer : C)
    (parser' : P') (clusterer' : C') (corpus : List String) (g : ℕ → ℕ)
    (summary summary' : AccuracyAuditSummary)
    (h : auditAccuracy rt uuidParses parseFn clusterFn parser clusterer corpus = some summary)
    (h' : auditAccuracy rt uuidParses parseFn' clusterFn' parser' clusterer' corpus = some summary')
    (hmerged : (answers clusterFn' clusterer' (audited corpus)).map (List.map Prod.fst) =
      (answers clusterFn clusterer (audited corpus)).map fun cs => (cs.map Prod.fst).map g) :
    summary'.groupingAccuracyGaPct ≤ summary.groupingAccuracyGaPct := by
  obtain ⟨truths, clusters, -, hextracted, hclustered, -, -, hga, -⟩ := exists_audits_of_summary h
  obtain ⟨truths', clusters', -, hextracted', hclustered', -, -, hga', -⟩ :=
    exists_audits_of_summary h'
  have htruths : truths' = truths :=
    List.map_injective_iff.mpr (Option.some_injective _) (hextracted'.symm.trans hextracted)
  rw [hclustered, hclustered'] at hmerged
  rw [hga, hga', htruths, groupings_map (Option.some.inj hmerged)]
  exact pct_mono _ (Grouping.score_map_le _ g)

theorem grouping_accuracy_coarser_sample :
    ∃ summary summary',
      auditAccuracy auditRuntime (fun _ => true) (baselineParse auditRuntime noReadings)
          ownCluster 0 0 auditSample = some summary ∧
      auditAccuracy auditRuntime (fun _ => true) (baselineParse auditRuntime noReadings)
          oneCluster 0 () auditSample = some summary' ∧
      summary'.groupingAccuracyGaPct ≤ summary.groupingAccuracyGaPct := by
  have hown : (answers ownCluster 0 auditSample).isSome := rfl
  have hone : (answers oneCluster () auditSample).isSome := rfl
  obtain ⟨summary, h⟩ := exists_audit_sample hown
  obtain ⟨summary', h'⟩ := exists_audit_sample hone
  exact ⟨summary, summary', h, h', grouping_accuracy_coarser auditRuntime (fun _ => true) _
    ownCluster _ oneCluster 0 0 0 () auditSample (fun _ => 0) summary summary' h h' rfl⟩

end Grouping

end Ulpf.Ai
