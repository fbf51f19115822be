import Ulpf.Core.SyslogListeners
import Ulpf.Generator.KaggleSyslog

/-!
# The data sets of the generator

`load_dataset` reads the files of the data sets into memory and turns the Kaggle rows into syslog
lines. Whatever the files hold, a log that is loaded is one line, trimmed and not blank.
-/

namespace Ulpf.Generator
open Ulpf.Core Ulpf.Library

inductive DatasetKind where
  | all
  | cisco
  | fortigate
  | paloAlto
  | suricata
  | pfSense
  | kaggle
deriving DecidableEq

inductive LoadError where
  | failedToOpen (file : String)
  | invalidData
  | noLogsLoaded (kind : DatasetKind)

section Load

variable (files : String → Option (List UInt8)) (clock : ℕ → String)

/-- Reads lines from a file, ignoring empty lines. -/
def readLines (name : String) : Except LoadError (List Text) :=
  match files name with
  | none => .error (.failedToOpen name)
  | some bytes =>
    if (nextLines bytes).all Option.isSome then .ok (trimmedLines ((nextLines bytes).filterMap id))
    else .error .invalidData

/-- `clock i` is read for the row `i`. -/
def loadKaggle : Except LoadError (List Text) :=
  (readLines files "kaggle_firewall.csv").map fun lines =>
    lines.zipIdx.filterMap fun p =>
      (kaggleRowToSyslog (clock p.2) (String.ofList p.1) none).map String.toList

/-- What is loaded for a data set, part by part. -/
def loadParts : DatasetKind → List (Except LoadError (List Text))
  | .cisco => [readLines files "cisco_asa.log"]
  | .fortigate => [readLines files "fortigate.log"]
  | .paloAlto => [readLines files "paloalto.log"]
  | .suricata => [readLines files "suricata.json"]
  | .pfSense => [readLines files "pfsense.log"]
  | .kaggle => [loadKaggle files clock]
  | .all =>
    [readLines files "cisco_asa.log", readLines files "fortigate.log",
      readLines files "paloalto.log", readLines files "suricata.json",
      readLines files "pfsense.log", loadKaggle files clock]

def loadDataset (kind : DatasetKind) : Except LoadError (List Text) :=
  match (loadParts files clock kind).foldlM (fun logs part => part.map (logs ++ ·)) [] with
  | .error err => .error err
  | .ok logs => if logs = [] then .error (.noLogsLoaded kind) else .ok logs

end Load

/-- A log that is one line, trimmed and not blank. -/
structure OneLine (log : Text) : Prop where
  bare : Bare isWhitespace log
  ne_nil : log ≠ []
  newline : '\n' ∉ log

lemma OneLine.trim_eq {log : Text} (h : OneLine log) : trim log = log := strip_eq_self h.bare

/-! ### Lines of a file -/

lemma oneLine_of_mem_readLines {files : String → Option (List UInt8)} {name : String}
    {logs : List Text} (h : readLines files name = .ok logs) : ∀ log ∈ logs, OneLine log := by
  unfold readLines at h
  split at h
  · cases h
  · next bytes hbytes =>
    split_ifs at h with hvalid
    cases h
    intro log hlog
    rw [trimmedLines, List.mem_filter, List.mem_map] at hlog
    obtain ⟨⟨line, hline, rfl⟩, hne⟩ := hlog
    obtain ⟨answer, hanswer, rfl⟩ := List.mem_filterMap.mp hline
    refine ⟨bare_strip line, by simpa using hne, ?_⟩
    intro hmem
    exact newline_notMem_of_nextLines hanswer (strip_subset line hmem)

/-! ### Kaggle rows -/

lemma mem_columnOr {P : Text → Prop} {row : String} (hcolumns : ∀ field ∈ columnsOf row, P field)
    (hunknown : P "unknown".toList) (hzero : P "0".toList) (i : ℕ) :
    P (columnOr (columnsOf row) i).toList := by
  rw [columnOr, String.toList_ofList]
  cases h : (columnsOf row)[i]? with
  | some field => exact hcolumns field (List.mem_of_getElem? h)
  | none =>
    rw [Option.getD_none]
    split_ifs
    · exact hunknown
    · exact hzero

lemma newline_notMem_columnOr {row : String} (hrow : '\n' ∉ row.toList) (i : ℕ) :
    '\n' ∉ (columnOr (columnsOf row) i).toList := by
  apply mem_columnOr (P := fun field => '\n' ∉ field) _ (by decide) (by decide)
  intro field hfield hmem
  obtain ⟨piece, hpiece, rfl⟩ := List.mem_map.mp hfield
  rw [List.splitOn_eq_splitOnP] at hpiece
  exact hrow (subset_of_mem_splitOnP hpiece (strip_subset piece hmem))

lemma bare_columnOr (row : String) (i : ℕ) :
    Bare isWhitespace (columnOr (columnsOf row) i).toList := by
  apply mem_columnOr (P := Bare isWhitespace)
  · intro field hfield
    obtain ⟨piece, -, rfl⟩ := List.mem_map.mp hfield
    exact bare_strip piece
  · exact ⟨by simp [isWhitespace], by simp [isWhitespace]⟩
  · exact ⟨by simp [isWhitespace], by simp [isWhitespace]⟩

lemma newline_notMem_syslogLine {ts : String} (hts : '\n' ∉ ts.toList) {f : ℕ → String}
    (hf : ∀ i, '\n' ∉ (f i).toList) : '\n' ∉ (syslogLine ts f).toList := by
  have hwords : ∀ word ∈ syslogWords f, '\n' ∉ word.2.toList := by
    intro word hword
    simp only [syslogWords, List.mem_cons, List.not_mem_nil, or_false] at hword
    rcases hword with rfl | rfl | rfl | rfl | rfl | rfl | rfl | rfl | rfl | rfl | rfl | rfl
    · simpa using hf 4
    all_goals exact hf _
  rw [toList_syslogLine, List.mem_append, syslogTag]
  rintro (htag | hpairs)
  · simp only [String.toList_append, List.mem_append] at htag
    rcases htag with (hopen | hclock) | hend
    · exact absurd hopen (by decide)
    · exact hts hclock
    · exact absurd hend (by decide)
  · obtain ⟨pair, hpair, hmem⟩ := List.mem_flatMap.mp hpairs
    obtain ⟨word, hword, rfl⟩ := List.mem_map.mp hpair
    rw [printPair, List.mem_cons, List.mem_append, List.mem_cons] at hmem
    rcases hmem with hblank | hkey | hsign | hvalue
    · exact absurd hblank (by decide)
    · exact forall_key (P := (· ≠ '\n')) f
        (fun c hc _ heq => absurd hc (by rw [heq]; decide)) word hword '\n' hkey rfl
    · exact absurd hsign (by decide)
    · exact hwords word hword hvalue

lemma bare_syslogLine (ts : String) {f : ℕ → String} (hlast : Bare isWhitespace (f 11).toList) :
    Bare isWhitespace (syslogLine ts f).toList := by
  obtain ⟨middle, hline⟩ : ∃ middle,
      (syslogLine ts f).toList = '<' :: (middle ++ '=' :: (f 11).toList) := by
    have hpairs : syslogPairs f =
        (syslogPairs f).dropLast ++ [("pkts_rcvd".toList, (f 11).toList)] := rfl
    have htag : (syslogTag ts).toList = '<' :: ("134>".toList ++ ts.toList ++
        " firewall-kaggle-01 %KAGGLE-FW-1-TRAFFIC:".toList) := by
      rw [syslogTag, String.toList_append, String.toList_append]
      rfl
    rw [toList_syslogLine, hpairs, List.flatMap_append, htag]
    refine ⟨"134>".toList ++ ts.toList ++ " firewall-kaggle-01 %KAGGLE-FW-1-TRAFFIC:".toList ++
      ((syslogPairs f).dropLast.flatMap printPair ++ ' ' :: "pkts_rcvd".toList), ?_⟩
    simp only [List.cons_append, List.append_assoc, List.flatMap_cons, List.flatMap_nil, printPair,
      List.append_nil]
  rw [hline]
  constructor
  · intro c hc
    rw [List.head?_cons] at hc
    cases hc
    decide
  · intro c hc
    rw [← List.cons_append] at hc
    by_cases hempty : (f 11).toList = []
    · rw [hempty, List.getLast?_concat] at hc
      cases hc
      decide
    · have hcons : ('<' :: middle) ++ '=' :: (f 11).toList =
          ('<' :: middle ++ ['=']) ++ (f 11).toList := by simp
      rw [hcons, List.getLast?_append_of_ne_nil _ hempty] at hc
      exact hlast.last c hc

lemma oneLine_of_kaggleRowToSyslog {clock row line : String} (hclock : '\n' ∉ clock.toList)
    (hrow : '\n' ∉ row.toList) (h : kaggleRowToSyslog clock row none = some line) :
    OneLine line.toList := by
  unfold kaggleRowToSyslog at h
  dsimp only at h
  split_ifs at h
  cases h
  refine ⟨bare_syslogLine _ (bare_columnOr row 11), ?_,
    newline_notMem_syslogLine hclock (newline_notMem_columnOr hrow)⟩
  rw [toList_syslogLine, syslogTag, String.toList_append, String.toList_append]
  exact List.cons_ne_nil _ _

/-! ### Data sets -/

section Load

variable {files : String → Option (List UInt8)} {clock : ℕ → String}
  (hclock : ∀ i, '\n' ∉ (clock i).toList)
include hclock

lemma oneLine_of_mem_loadKaggle {logs : List Text} (h : loadKaggle files clock = .ok logs) :
    ∀ log ∈ logs, OneLine log := by
  unfold loadKaggle at h
  cases hlines : readLines files "kaggle_firewall.csv" with
  | error err =>
    rw [hlines] at h
    cases h
  | ok lines =>
    rw [hlines] at h
    cases h
    intro log hlog
    obtain ⟨⟨row, i⟩, hrow, hmap⟩ := List.mem_filterMap.mp hlog
    obtain ⟨line, hline, rfl⟩ := Option.map_eq_some_iff.mp hmap
    apply oneLine_of_kaggleRowToSyslog (hclock i) _ hline
    rw [String.toList_ofList]
    exact (oneLine_of_mem_readLines hlines row (List.fst_mem_of_mem_zipIdx hrow)).newline

lemma oneLine_of_mem_loadParts {kind : DatasetKind} {part : Except LoadError (List Text)}
    (hpart : part ∈ loadParts files clock kind) {logs : List Text} (h : part = .ok logs) :
    ∀ log ∈ logs, OneLine log := by
  subst h
  cases kind with
  | all =>
    simp only [loadParts, List.mem_cons, List.not_mem_nil, or_false] at hpart
    rcases hpart with h | h | h | h | h | h
    · exact oneLine_of_mem_readLines h.symm
    · exact oneLine_of_mem_readLines h.symm
    · exact oneLine_of_mem_readLines h.symm
    · exact oneLine_of_mem_readLines h.symm
    · exact oneLine_of_mem_readLines h.symm
    · exact oneLine_of_mem_loadKaggle hclock h.symm
  | kaggle => exact oneLine_of_mem_loadKaggle hclock (List.mem_singleton.mp hpart).symm
  | cisco | fortigate | paloAlto | suricata | pfSense =>
    exact oneLine_of_mem_readLines (List.mem_singleton.mp hpart).symm

lemma oneLine_of_mem_loadDataset {kind : DatasetKind} {logs : List Text}
    (h : loadDataset files clock kind = .ok logs) : logs ≠ [] ∧ ∀ log ∈ logs, OneLine log := by
  have hparts : ∀ (parts : List (Except LoadError (List Text))) (before after : List Text),
      (∀ part ∈ parts, ∀ logs, part = .ok logs → ∀ log ∈ logs, OneLine log) →
      (∀ log ∈ before, OneLine log) →
      parts.foldlM (fun logs part => part.map (logs ++ ·)) before = .ok after →
      ∀ log ∈ after, OneLine log := by
    intro parts
    induction parts with
    | nil =>
      intro before after _ hbefore hfold
      cases hfold
      exact hbefore
    | cons part parts ih =>
      intro before after hall hbefore hfold
      cases part with
      | error err => cases hfold
      | ok logs =>
        refine ih (before ++ logs) after (fun p hp => hall p (List.mem_cons_of_mem _ hp)) ?_ hfold
        rw [List.forall_mem_append]
        exact ⟨hbefore, hall _ List.mem_cons_self logs rfl⟩
  unfold loadDataset at h
  split at h
  · cases h
  · next loaded hfold =>
    split_ifs at h with hne
    cases h
    refine ⟨hne, hparts _ [] logs ?_ (by simp) hfold⟩
    intro part hpart logs hlogs
    exact oneLine_of_mem_loadParts hclock hpart hlogs

end Load

end Ulpf.Generator
