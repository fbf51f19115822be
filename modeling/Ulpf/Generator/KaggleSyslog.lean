import Ulpf.Core.Extractors.Kaggle
import Ulpf.Core.Words

/-!
# Kaggle rows as syslog lines

The generator writes a row of the data set as a syslog line with a `key=value` word for each
column. The extractor makes the same event of the row and of the line.
-/

namespace Ulpf.Generator
open Ulpf.Core Ulpf.Core.KaggleExtractor Ulpf.Library

/-- The columns of a row. -/
def columnsOf (row : String) : List Text := (row.toList.splitOn ',').map trim

/-- The keys and values of the format string, `f i` the column at index `i`. -/
def syslogWords (f : ℕ → String) : List (String × String) :=
  [("action", "\"" ++ f 4 ++ "\""), ("src_port", f 0), ("dst_port", f 1), ("nat_src_port", f 2),
    ("nat_dst_port", f 3), ("bytes", f 5), ("sent_bytes", f 6), ("rcvd_bytes", f 7),
    ("packets", f 8), ("elapsed_sec", f 9), ("pkts_sent", f 10), ("pkts_rcvd", f 11)]

def syslogTag (ts : String) : String := "<134>" ++ ts ++ " firewall-kaggle-01 %KAGGLE-FW-1-TRAFFIC:"

def syslogLine (ts : String) (f : ℕ → String) : String :=
  syslogTag ts ++ String.join ((syslogWords f).map fun word => " " ++ word.1 ++ "=" ++ word.2)

example : syslogLine "t" toString =
    "<134>t firewall-kaggle-01 %KAGGLE-FW-1-TRAFFIC: action=\"4\" src_port=0 dst_port=1 " ++
      "nat_src_port=2 nat_dst_port=3 bytes=5 sent_bytes=6 rcvd_bytes=7 packets=8 " ++
      "elapsed_sec=9 pkts_sent=10 pkts_rcvd=11" := by decide +kernel

/-- `parts.get(i).unwrap_or(&"0")`; the default of the action is another one. -/
def columnOr (parts : List Text) (i : ℕ) : String :=
  String.ofList (parts[i]?.getD (if i = 4 then "unknown" else "0").toList)

/-- `clock` is the reading of the clock where no timestamp is passed. -/
def kaggleRowToSyslog (clock row : String) (timestamp : Option String) : Option String :=
  let parts := columnsOf row
  if parts.length < 10 then none
  -- Skip header line if passed
  else if parts.head?.map (toAsciiLowercase ∘ String.ofList) = some "source port" then none
  else some (syslogLine (timestamp.getD clock) (columnOr parts))

/-- The event without its raw data and the readings of the clock. -/
def timeless (event : NetworkActivity) : NetworkActivity :=
  { event with time := 0, metadata := { event.metadata with rawData := "", ingestTime := 0 } }

lemma timeless_buildOcsf (nowMs nowMs' : Int64) (raw raw' : String) (c : Columns) :
    timeless (buildOcsf nowMs raw c) = timeless (buildOcsf nowMs' raw' c) := by
  unfold timeless buildOcsf NetworkActivity.withUnmapped
  dsimp only
  split_ifs <;> rfl

/-- A field as the generator's callers have them: no whitespace, quote or marker. -/
structure PlainField (field : Text) : Prop where
  solid : ∀ c ∈ field, isWhitespace c = false
  unquoted : '"' ∉ field
  unmarked : contains field "%KAGGLE-FW-" = false

/-! ### The row -/

lemma columnsOf_trim (row : String) :
    ((trim row.toList).splitOn ',').map trim = columnsOf row := by
  have hcomma : ∀ c, isWhitespace c = true → (c == ',') = false := by
    intro c hc
    rw [beq_eq_false_iff_ne]
    rintro rfl
    exact absurd hc (by decide)
  rw [columnsOf, List.splitOn_eq_splitOnP, List.splitOn_eq_splitOnP]
  exact map_strip_splitOnP_strip hcomma row.toList

/-- A text without commas and with bare ends lies within a column if it lies within the row. -/
lemma exists_column_of_infix {row : String} {m : Text} (hm : Bare isWhitespace m)
    (hcomma : ∀ c ∈ m, (c == ',') = false) (h : m <:+: trim row.toList) :
    ∃ field ∈ columnsOf row, m <:+: field := by
  obtain ⟨piece, hpiece, hwithin⟩ := exists_piece_of_infix hcomma h
  rw [← columnsOf_trim]
  exact ⟨trim piece, List.mem_map_of_mem hpiece, infix_strip hm hwithin⟩

section Row

variable {row : String} (hplain : ∀ field ∈ columnsOf row, PlainField field)
include hplain

lemma not_header {pat : String} (hbare : Bare isWhitespace pat.toList)
    (hcomma : ∀ c ∈ pat.toList, (c == ',') = false) (hblank : ' ' ∈ pat.toList) :
    startsWith (trim row.toList) pat = false := by
  rw [Bool.eq_false_iff]
  intro hstarts
  obtain ⟨field, hfield, hwithin⟩ := exists_column_of_infix hbare hcomma
    (List.isPrefixOf_iff_prefix.mp hstarts).isInfix
  exact absurd ((hplain field hfield).solid ' ' (hwithin.subset hblank)) (by decide)

lemma not_marked : contains (trim row.toList) "%KAGGLE-FW-" = false := by
  rw [Bool.eq_false_iff]
  intro hmarked
  rw [contains_eq_true_iff] at hmarked
  obtain ⟨field, hfield, hwithin⟩ := exists_column_of_infix
    ⟨by simp [isWhitespace], by simp [isWhitespace]⟩ (by simp) hmarked
  have hfalse := (hplain field hfield).unmarked
  rw [contains_eq_true_iff.mpr hwithin] at hfalse
  cases hfalse

end Row

/-! ### The line -/

/-- A word with the blank before it. -/
def printPair (p : Text × Text) : Text := ' ' :: (p.1 ++ '=' :: p.2)

def syslogPairs (f : ℕ → String) : List (Text × Text) :=
  (syslogWords f).map fun word => (word.1.toList, word.2.toList)

lemma toList_join_words (words : List (String × String)) :
    (String.join (words.map fun word => " " ++ word.1 ++ "=" ++ word.2)).toList =
      (words.map fun word => (word.1.toList, word.2.toList)).flatMap printPair := by
  induction words with
  | nil => rfl
  | cons word words ih =>
    rw [List.map_cons, String.join_cons, String.toList_append, ih]
    simp [printPair]

lemma toList_syslogLine (ts : String) (f : ℕ → String) :
    (syslogLine ts f).toList = (syslogTag ts).toList ++ (syslogPairs f).flatMap printPair := by
  rw [syslogLine, String.toList_append, toList_join_words, syslogPairs]

lemma splitWhitespace_pairs {pairs : List (Text × Text)}
    (h : ∀ p ∈ pairs, ∀ c ∈ p.1 ++ '=' :: p.2, isWhitespace c = false) (tag : Text) :
    splitWhitespace (tag ++ pairs.flatMap printPair) =
      splitWhitespace tag ++ pairs.map fun p => p.1 ++ '=' :: p.2 := by
  induction pairs generalizing tag with
  | nil => rw [List.flatMap_nil, List.append_nil, List.map_nil, List.append_nil]
  | cons p pairs ih =>
    rw [List.forall_mem_cons] at h
    have hblank : isWhitespace ' ' = true := by decide
    rw [List.flatMap_cons, printPair, List.cons_append, splitWhitespace_append_cons _ _ hblank,
      ih h.2, splitWhitespace_word h.1 (by simp)]
    rfl

lemma dropWhile_ne_eq_nil {k : Text} (hk : '=' ∉ k) : k.dropWhile (· != '=') = [] := by
  rw [List.dropWhile_eq_nil_iff]
  intro c hc
  rw [bne_iff_ne]
  rintro rfl
  exact hk hc

lemma keyValue_pair {k : Text} (hk : '=' ∉ k) (v : Text) :
    keyValue (k ++ '=' :: v) = some (k, trimMatches (· == '"') v) := by
  have hkey : ∀ c ∈ k, (c == '=') = false := by
    intro c hc
    rw [beq_eq_false_iff_ne]
    rintro rfl
    exact hk hc
  obtain ⟨htake, hdrop⟩ := takeWhile_not_append_cons (p := (· == '=')) hkey (beq_self_eq_true _) v
  have htake' : (k ++ '=' :: v).takeWhile (· != '=') = k := htake
  have hdrop' : (k ++ '=' :: v).dropWhile (· != '=') = '=' :: v := hdrop
  rw [keyValue, hdrop', htake']

lemma keyValue_eq_none {part : Text} (h : '=' ∉ part) : keyValue part = none := by
  rw [keyValue, dropWhile_ne_eq_nil h]

lemma filterMap_keyValue_tag {ts : String} (hts : '=' ∉ ts.toList) :
    (splitWhitespace (syslogTag ts).toList).filterMap keyValue = [] := by
  rw [List.filterMap_eq_nil_iff]
  intro w hw
  apply keyValue_eq_none
  intro hmem
  have hline := subset_of_mem_splitWhitespace hw hmem
  rw [syslogTag, String.toList_append, String.toList_append, List.mem_append,
    List.mem_append] at hline
  rcases hline with (hstart | hmiddle) | hend
  · exact absurd hstart (by decide)
  · exact hts hmiddle
  · exact absurd hend (by decide)

lemma filterMap_keyValue_pairs {pairs : List (Text × Text)} (h : ∀ p ∈ pairs, '=' ∉ p.1) :
    (pairs.map fun p => p.1 ++ '=' :: p.2).filterMap keyValue =
      pairs.map fun p => (p.1, trimMatches (· == '"') p.2) := by
  induction pairs with
  | nil => rfl
  | cons p pairs ih =>
    rw [List.forall_mem_cons] at h
    rw [List.map_cons, List.filterMap_cons_some (keyValue_pair h.1 p.2), ih h.2, List.map_cons]

lemma forall_key {P : Char → Prop} (f : ℕ → String)
    (h : ∀ c, isWhitespace c = false → c ≠ '=' → P c) :
    ∀ word ∈ syslogWords f, ∀ c ∈ word.1.toList, P c := by
  have hkeys : ∀ key ∈ (syslogWords f).map Prod.fst, ∀ c ∈ key.toList,
      isWhitespace c = false ∧ c ≠ '=' := by
    have hmap : (syslogWords f).map Prod.fst = ["action", "src_port", "dst_port", "nat_src_port",
        "nat_dst_port", "bytes", "sent_bytes", "rcvd_bytes", "packets", "elapsed_sec",
        "pkts_sent", "pkts_rcvd"] := rfl
    have hall : ((syslogWords f).map Prod.fst).all (fun key =>
        key.toList.all fun c => !isWhitespace c && c != '=') = true := by
      rw [hmap]
      decide +kernel
    intro key hkey c hc
    simpa using List.all_eq_true.mp (List.all_eq_true.mp hall key hkey) c hc
  intro word hword c hc
  obtain ⟨hblank, hsign⟩ := hkeys word.1 (List.mem_map_of_mem hword) c hc
  exact h c hblank hsign

/-- What both branches read of the columns. -/
def columnsRead (f : ℕ → String) : Columns where
  srcPort := parseUInt16 (f 0).toList
  dstPort := parseUInt16 (f 1).toList
  natSrcPort := parseUInt16 (f 2).toList
  natDstPort := parseUInt16 (f 3).toList
  action := some (f 4)
  bytes := parseUInt64 (f 5).toList
  sentBytes := parseUInt64 (f 6).toList
  rcvdBytes := parseUInt64 (f 7).toList
  packets := parseUInt64 (f 8).toList
  elapsed := parseUInt64 (f 9).toList
  pktsSent := parseUInt64 (f 10).toList
  pktsRcvd := parseUInt64 (f 11).toList

lemma parseSyslog_syslogLine {ts : String} (hts : '=' ∉ ts.toList) {f : ℕ → String}
    (hsolid : ∀ i, ∀ c ∈ (f i).toList, isWhitespace c = false)
    (hunquoted : ∀ i, '"' ∉ (f i).toList) :
    parseSyslog (syslogLine ts f).toList = columnsRead f := by
  have hvalue : ∀ i, trimMatches (· == '"') (f i).toList = (f i).toList := by
    intro i
    apply strip_eq_self (bare_of_forall _)
    intro c hc
    rw [beq_eq_false_iff_ne]
    rintro rfl
    exact hunquoted i hc
  have hquoted : trimMatches (· == '"') ("\"" ++ f 4 ++ "\"").toList = (f 4).toList := by
    have henclosed : ("\"" ++ f 4 ++ "\"").toList = '"' :: ((f 4).toList ++ ['"']) := by simp
    rw [henclosed]
    exact (strip_enclosed (p := (· == '"')) (beq_self_eq_true _) (beq_self_eq_true _) _).trans
      (hvalue 4)
  have hvalues : ∀ word ∈ syslogWords f, ∀ c ∈ word.2.toList, isWhitespace c = false := by
    intro word hword
    simp only [syslogWords, List.mem_cons, List.not_mem_nil, or_false] at hword
    rcases hword with rfl | rfl | rfl | rfl | rfl | rfl | rfl | rfl | rfl | rfl | rfl | rfl
    · intro c hc
      simp only [String.toList_append, List.mem_append] at hc
      rcases hc with (hopen | hmem) | hclose
      · rw [List.mem_singleton.mp hopen]
        decide
      · exact hsolid 4 c hmem
      · rw [List.mem_singleton.mp hclose]
        decide
    all_goals exact hsolid _
  have hwords : ∀ p ∈ syslogPairs f, ∀ c ∈ p.1 ++ '=' :: p.2, isWhitespace c = false := by
    rw [syslogPairs, List.forall_mem_map]
    intro word hword c hc
    rcases List.mem_append.mp hc with hkey | hrest
    · exact forall_key f (fun c hblank _ => hblank) word hword c hkey
    · rcases List.mem_cons.mp hrest with rfl | hmem
      · decide
      · exact hvalues word hword c hmem
  have hkeys : ∀ p ∈ syslogPairs f, '=' ∉ p.1 := by
    rw [syslogPairs, List.forall_mem_map]
    intro word hword hmem
    exact forall_key (P := (· ≠ '=')) f (fun c _ hsign => hsign) word hword '=' hmem rfl
  have hread : (syslogPairs f).map (fun p => (p.1, trimMatches (· == '"') p.2)) =
      [("action".toList, (f 4).toList), ("src_port".toList, (f 0).toList),
        ("dst_port".toList, (f 1).toList), ("nat_src_port".toList, (f 2).toList),
        ("nat_dst_port".toList, (f 3).toList), ("bytes".toList, (f 5).toList),
        ("sent_bytes".toList, (f 6).toList), ("rcvd_bytes".toList, (f 7).toList),
        ("packets".toList, (f 8).toList), ("elapsed_sec".toList, (f 9).toList),
        ("pkts_sent".toList, (f 10).toList), ("pkts_rcvd".toList, (f 11).toList)] := by
    simp only [syslogPairs, syslogWords, List.map_cons, List.map_nil, hvalue, hquoted]
  rw [parseSyslog, toList_syslogLine, splitWhitespace_pairs hwords, List.filterMap_append,
    filterMap_keyValue_tag hts, List.nil_append, filterMap_keyValue_pairs hkeys, hread]
  have haction : String.ofList (f 4).toList = f 4 := String.ofList_toList
  unfold columnsRead
  conv_rhs => rw [← haction]
  rfl

/-! ### Agreement -/

lemma toLower_eq_blank {c : Char} (h : c.toLower = ' ') : c = ' ' := by
  unfold Char.toLower at h
  split_ifs at h with hupper
  · have hcode := congrArg Char.toNat h
    have hle : 65 ≤ c.val.toNat := UInt32.le_iff_toNat_le.mp hupper.1
    have hge : c.val.toNat ≤ 90 := UInt32.le_iff_toNat_le.mp hupper.2
    have hsum : (c.val.toNat + 32) % 2 ^ 32 = 32 := hcode
    omega
  · exact h

section Agreement

variable {row : String} (hcount : (columnsOf row).length = 12)
  (hplain : ∀ field ∈ columnsOf row, PlainField field)

include hcount in
lemma getElem?_columnsOf {i : ℕ} (hi : i < 12) :
    (columnsOf row)[i]? = some (columnOr (columnsOf row) i).toList := by
  have hlt : i < (columnsOf row).length := by rwa [hcount]
  rw [columnOr, String.toList_ofList, List.getElem?_eq_getElem hlt, Option.getD_some]

include hplain in
lemma plain_columnOr (i : ℕ) : PlainField (columnOr (columnsOf row) i).toList := by
  rw [columnOr, String.toList_ofList]
  cases h : (columnsOf row)[i]? with
  | some field => exact hplain field (List.mem_of_getElem? h)
  | none =>
    rw [Option.getD_none]
    split_ifs
    · exact ⟨by simp [isWhitespace], by simp, by decide +kernel⟩
    · exact ⟨by simp [isWhitespace], by simp, by decide +kernel⟩

include hcount hplain in
lemma kaggleRowToSyslog_eq (clock : String) (timestamp : Option String) :
    kaggleRowToSyslog clock row timestamp =
      some (syslogLine (timestamp.getD clock) (columnOr (columnsOf row))) := by
  have hheader : (columnsOf row).head?.map (toAsciiLowercase ∘ String.ofList) ≠
      some "source port" := by
    intro h
    obtain ⟨field, hfield, hlower⟩ := Option.map_eq_some_iff.mp h
    have hblank : ' ' ∈ field.map Char.toLower := by
      have htext := congrArg String.toList hlower
      rw [Function.comp_apply, toAsciiLowercase, String.toList_ofList,
        String.toList_ofList] at htext
      rw [htext]
      decide
    obtain ⟨c, hc, hlowerc⟩ := List.mem_map.mp hblank
    rw [toLower_eq_blank hlowerc] at hc
    exact absurd ((hplain field (List.mem_of_mem_head? hfield)).solid ' ' hc) (by decide)
  unfold kaggleRowToSyslog
  dsimp only
  rw [if_neg (by rw [hcount]; decide), if_neg hheader]

include hcount hplain in
lemma parse_row (nowMs : Int64) :
    KaggleExtractor.parse nowMs row = .ok (buildOcsf nowMs row
      (columnsRead fun i => (columnOr (columnsOf row) i))) := by
  have hheader : startsWith (trim row.toList) "Source Port" = false :=
    not_header hplain ⟨by simp [isWhitespace], by simp [isWhitespace]⟩ (by simp) (by simp)
  have hheader' : startsWith (trim row.toList) "source port" = false :=
    not_header hplain ⟨by simp [isWhitespace], by simp [isWhitespace]⟩ (by simp) (by simp)
  have haction : String.ofList (columnOr (columnsOf row) 4).toList = columnOr (columnsOf row) 4 :=
    String.ofList_toList
  have hget := fun i hi => getElem?_columnsOf hcount (i := i) hi
  have hcsv : parseCsv (trim row.toList) = .ok (columnsRead (columnOr (columnsOf row))) := by
    unfold parseCsv columnsRead
    dsimp only
    rw [columnsOf_trim, if_neg (by rw [hcount]; decide), hget 0 (by decide), hget 1 (by decide),
      hget 2 (by decide), hget 3 (by decide), hget 4 (by decide), hget 5 (by decide),
      hget 6 (by decide), hget 7 (by decide), hget 8 (by decide), hget 9 (by decide),
      hget 10 (by decide), hget 11 (by decide)]
    simp only [Option.bind_some, Option.map_some, haction]
  unfold KaggleExtractor.parse
  dsimp only
  rw [hheader, hheader', not_marked hplain, hcsv]
  rfl

end Agreement

lemma parse_syslogLine (nowMs : Int64) (ts : String) (f : ℕ → String) :
    KaggleExtractor.parse nowMs (syslogLine ts f) =
      .ok (buildOcsf nowMs (syslogLine ts f) (parseSyslog (syslogLine ts f).toList)) := by
  have hmarked : contains (trim (syslogLine ts f).toList) "%KAGGLE-FW-" = true := by
    rw [contains_eq_true_iff]
    apply infix_strip ⟨by simp [isWhitespace], by simp [isWhitespace]⟩
    refine ⟨"<134>".toList ++ ts.toList ++ " firewall-kaggle-01 ".toList,
      "1-TRAFFIC:".toList ++ (syslogPairs f).flatMap printPair, ?_⟩
    have hend : " firewall-kaggle-01 %KAGGLE-FW-1-TRAFFIC:".toList =
        " firewall-kaggle-01 ".toList ++ "%KAGGLE-FW-".toList ++ "1-TRAFFIC:".toList := by
      decide +kernel
    rw [toList_syslogLine, syslogTag, String.toList_append, String.toList_append, hend]
    simp only [List.append_assoc]
  have hstart : ∃ rest, trim (syslogLine ts f).toList = '<' :: rest := by
    have hopen : "<134>".toList = '<' :: "134>".toList := by decide +kernel
    have hbracket : isWhitespace '<' = false := by decide
    rw [toList_syslogLine, syslogTag, String.toList_append, String.toList_append, hopen,
      List.cons_append, List.cons_append, List.cons_append]
    exact ⟨_, strip_cons_of_neg hbracket _⟩
  obtain ⟨rest, hrest⟩ := hstart
  have hheader : startsWith (trim (syslogLine ts f).toList) "Source Port" = false := by
    rw [hrest]
    rfl
  have hheader' : startsWith (trim (syslogLine ts f).toList) "source port" = false := by
    rw [hrest]
    rfl
  have hwords : parseSyslog (trim (syslogLine ts f).toList) =
      parseSyslog (syslogLine ts f).toList := by
    rw [parseSyslog, parseSyslog, splitWhitespace_trim]
  unfold KaggleExtractor.parse
  dsimp only
  rw [hheader, hheader', hmarked, hwords]
  rfl

/-- The extractor makes the same event of a row and of the line generated from it, the raw data
and the readings of the clock aside. -/
theorem kaggle_formats_agree (nowMs nowMs' : Int64) (clock row : String)
    (timestamp : Option String) (hcount : (columnsOf row).length = 12)
    (hplain : ∀ field ∈ columnsOf row, PlainField field)
    (hts : '=' ∉ (timestamp.getD clock).toList) :
    ∃ line event event', kaggleRowToSyslog clock row timestamp = some line ∧
      KaggleExtractor.parse nowMs row = .ok event ∧
      KaggleExtractor.parse nowMs' line = .ok event' ∧
      timeless event = timeless event' := by
  have hcolumns := fun i => plain_columnOr hplain i
  have hsyslog := parseSyslog_syslogLine hts (fun i => (hcolumns i).solid)
    (fun i => (hcolumns i).unquoted)
  generalize hline : syslogLine (timestamp.getD clock) (columnOr (columnsOf row)) = line at hsyslog
  refine ⟨line, buildOcsf nowMs row (parseSyslog line.toList),
    buildOcsf nowMs' line (parseSyslog line.toList), ?_, ?_, ?_, timeless_buildOcsf _ _ _ _ _⟩
  · rw [kaggleRowToSyslog_eq hcount hplain, hline]
  · rw [parse_row hcount hplain, hsyslog]
  · rw [← hline, parse_syslogLine]

/-- A row with a blank field, a number out of range and a sign in a field. -/
theorem kaggle_formats_agree_odd_row :
    ∃ line event event',
      kaggleRowToSyslog "" " 99999,53, a=b,,allow,1,2,3,4,5,6,7\n" none = some line ∧
      KaggleExtractor.parse 0 " 99999,53, a=b,,allow,1,2,3,4,5,6,7\n" = .ok event ∧
      KaggleExtractor.parse 1 line = .ok event' ∧
      timeless event = timeless event' := by
  refine kaggle_formats_agree 0 1 "" _ none (by decide +kernel) ?_ (by decide)
  have hcolumns : columnsOf " 99999,53, a=b,,allow,1,2,3,4,5,6,7\n" =
      ["99999", "53", "a=b", "", "allow", "1", "2", "3", "4", "5", "6", "7"].map String.toList := by
    decide +kernel
  have hplain : ∀ field ∈ ["99999", "53", "a=b", "", "allow", "1", "2", "3", "4", "5", "6", "7"],
      field.toList.all (fun c => !isWhitespace c) = true ∧ '"' ∉ field.toList ∧
        contains field.toList "%KAGGLE-FW-" = false := by
    decide +kernel
  rw [hcolumns, List.forall_mem_map]
  intro field hfield
  obtain ⟨hsolid, hunquoted, hunmarked⟩ := hplain field hfield
  exact ⟨by simpa using hsolid, hunquoted, hunmarked⟩

end Ulpf.Generator
