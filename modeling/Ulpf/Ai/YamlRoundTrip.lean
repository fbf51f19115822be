import Ulpf.Ai.ParserYaml

/-!
# Parser definitions through YAML and back

The emitter escapes quotes and the scanner does not undo it, so what survives the round trip are
the definitions in `YamlSafe`. A pattern and a sample come back with one more backslash for each
quote in them.
-/

namespace Ulpf.Ai
open Ulpf.Core
open Ulpf.Library
open Ulpf.Library.Binary64

/-! ### Escapes -/

def escapeQuotes (s : Text) : Text := replaceChar '"' "\\\"" s

lemma escapeQuotes_of_notMem {s : Text} (h : '"' ∉ s) : escapeQuotes s = s := by
  induction s with
  | nil => rfl
  | cons c s ih =>
    rw [List.mem_cons, not_or] at h
    have hs := ih h.2
    rw [escapeQuotes, replaceChar] at hs ⊢
    rw [List.flatMap_cons, if_neg (Ne.symm h.1), hs]
    rfl

lemma count_escapeQuotes (s : Text) :
    (escapeQuotes s).count '\\' = s.count '\\' + s.count '"' := by
  induction s with
  | nil => rfl
  | cons c s ih =>
    rw [escapeQuotes, replaceChar] at ih ⊢
    rw [List.flatMap_cons, List.count_append, ih]
    split_ifs with hc
    · rw [hc, List.count_cons_self, List.count_cons_of_ne (by decide)]
      have hone : "\\\"".toList.count '\\' = 1 := by decide
      omega
    · rw [List.count_cons_of_ne hc]
      simp only [List.count_cons, List.count_nil]
      omega

/-- Undoing the doubled backslashes leaves the backslashes before the quotes. -/
lemma replace_doubled (s t : Text) :
    replace "\\\\" "\\" (escapeQuotes (replaceChar '\\' "\\\\" s) ++ t) =
      escapeQuotes s ++ replace "\\\\" "\\" t := by
  induction s with
  | nil => rfl
  | cons c s ih =>
    unfold replace escapeQuotes replaceChar at ih ⊢
    rw [List.flatMap_cons, List.flatMap_cons, List.flatMap_append, List.append_assoc,
      List.append_assoc]
    by_cases hslash : c = '\\'
    · rw [hslash]
      exact congrArg ('\\' :: ·) ih
    · rw [if_neg hslash]
      by_cases hquote : c = '"'
      · rw [hquote]
        exact congrArg (fun r => '\\' :: '"' :: r) ih
      · rw [List.flatMap_singleton, if_neg hquote, List.singleton_append, List.singleton_append,
          replaceAfter, if_neg, ih]
        intro hstart
        exact hslash (List.cons_prefix_cons.mp (List.isPrefixOf_iff_prefix.mp hstart)).1.symm

lemma escapeQuotes_append (s t : Text) :
    escapeQuotes (s ++ t) = escapeQuotes s ++ escapeQuotes t := List.flatMap_append

lemma head_escapeQuotes {s t : Text} (ht : ∀ a ∈ t.head?, (a == '"') = false) :
    ∀ a ∈ (escapeQuotes s ++ t).head?, (a == '"') = false := by
  cases s with
  | nil => exact ht
  | cons c s =>
    intro a ha
    by_cases hc : c = '"'
    · rw [hc] at ha
      cases ha
      rfl
    · rw [escapeQuotes, replaceChar, List.flatMap_cons, if_neg hc] at ha
      cases ha
      simpa using hc

lemma unquote_escapeQuotes_quote (s : Text) :
    unquote (escapeQuotes (s ++ ['"'])) = escapeQuotes s ++ ['\\'] := by
  have hsplit : escapeQuotes (s ++ ['"']) = escapeQuotes s ++ ['\\'] ++ ['"'] := by
    rw [escapeQuotes_append, List.append_assoc]
    rfl
  have hbare : Unquoted (escapeQuotes s ++ ['\\']) := by
    refine ⟨head_escapeQuotes (by simp), ?_⟩
    rw [List.getLast?_concat]
    simp
  rw [hsplit]
  exact (strip_concat_of_pos (by decide) _).trans (strip_eq_self hbare)

lemma unquote_escapeQuotes_of_ne (s : Text) {c : Char} (hc : c ≠ '"') :
    unquote (escapeQuotes (s ++ [c])) = escapeQuotes (s ++ [c]) := by
  have hsplit : escapeQuotes (s ++ [c]) = escapeQuotes s ++ [c] := by
    rw [escapeQuotes_append, escapeQuotes_of_notMem (s := [c]) (by simpa using Ne.symm hc)]
  rw [hsplit]
  refine strip_eq_self ⟨head_escapeQuotes (by simpa using hc), ?_⟩
  rw [List.getLast?_concat]
  simpa using hc

lemma count_unquote_escapeQuotes (s : Text) :
    (unquote (escapeQuotes s)).count '\\' = s.count '\\' + s.count '"' := by
  rcases List.eq_nil_or_concat' s with rfl | ⟨s, c, rfl⟩
  · rfl
  · by_cases hc : c = '"'
    · rw [hc, unquote_escapeQuotes_quote, List.count_append, count_escapeQuotes,
        List.count_append, List.count_append]
      have hslash : ['\\'].count '\\' = 1 := rfl
      have hquote : ['"'].count '\\' = 0 := rfl
      have hself : ['"'].count '"' = 1 := rfl
      omega
    · rw [unquote_escapeQuotes_of_ne s hc, count_escapeQuotes]

lemma unquote_escapeQuotes_eq_self_iff {s : Text} : unquote (escapeQuotes s) = s ↔ '"' ∉ s := by
  constructor
  · intro h
    have hcount := count_unquote_escapeQuotes s
    rw [h] at hcount
    exact List.count_eq_zero.mp (by omega)
  · intro h
    have hne : ∀ a ∈ s, (a == '"') = false := by
      intro a ha
      rw [beq_eq_false_iff_ne]
      rintro rfl
      exact h ha
    rw [escapeQuotes_of_notMem h]
    exact strip_eq_self (bare_of_forall hne)

lemma replace_unquote_doubled (s : Text) :
    replace "\\\\" "\\" (unquote (escapeQuotes (replaceChar '\\' "\\\\" s))) =
      unquote (escapeQuotes s) := by
  rcases List.eq_nil_or_concat' s with rfl | ⟨s, c, rfl⟩
  · rfl
  · have hdouble : replaceChar '\\' "\\\\" (s ++ [c]) =
        replaceChar '\\' "\\\\" s ++ (if c = '\\' then ['\\'] else []) ++ [c] := by
      unfold replaceChar
      rw [List.flatMap_append, List.flatMap_singleton, List.append_assoc]
      split_ifs with hc
      · rw [hc]
        rfl
      · rfl
    by_cases hc : c = '"'
    · rw [hdouble, hc, if_neg (by decide), List.append_nil, unquote_escapeQuotes_quote,
        unquote_escapeQuotes_quote, replace_doubled]
      rfl
    · have hpattern := replace_doubled (s ++ [c]) []
      rw [List.append_nil] at hpattern
      rw [hdouble, unquote_escapeQuotes_of_ne _ hc, ← hdouble, hpattern,
        unquote_escapeQuotes_of_ne _ hc]
      exact List.append_nil _

/-! ### Numbers and lines -/

lemma digits_toDigits (n : ℕ) : ∀ c ∈ Nat.toDigits 10 n, c.isDigit = true :=
  fun _ hc => Nat.isDigit_of_mem_toDigits (by decide) (by decide) hc

lemma splitSign_of_digits {s : Text} (h : ∀ c ∈ s, c.isDigit = true) :
    splitSign s = (false, s) := by
  unfold splitSign
  split
  · cases h '-' (List.mem_cons_self ..)
  · cases h '+' (List.mem_cons_self ..)
  · rfl

lemma splitSign_formatI64 (n : Int64) :
    splitSign (formatI64 n) = (decide (n.toInt < 0), Nat.toDigits 10 n.toInt.natAbs) := by
  unfold formatI64
  split_ifs with hneg
  · rw [decide_eq_true hneg]
    rfl
  · rw [decide_eq_false hneg, splitSign_of_digits (digits_toDigits _)]

lemma parseI64_formatI64 (n : Int64) : parseI64 (formatI64 n) = some n := by
  have hdigits : (Nat.toDigits 10 n.toInt.natAbs).all Char.isDigit = true :=
    List.all_eq_true.mpr (digits_toDigits _)
  have hvalue : (if decide (n.toInt < 0) = true then -(n.toInt.natAbs : ℤ)
      else (n.toInt.natAbs : ℤ)) = n.toInt := by
    split_ifs with hneg <;> rw [decide_eq_true_eq] at hneg <;> omega
  unfold parseI64
  rw [splitSign_formatI64]
  dsimp only
  rw [if_neg Nat.toDigits_ne_nil, if_pos hdigits, Nat.ofDigitChars_ten_toDigits, hvalue,
    if_pos ⟨n.minValue_le_toInt, n.toInt_le⟩, Int64.ofInt_toInt]

lemma mem_formatI64 {n : Int64} {c : Char} (h : c ∈ formatI64 n) : c.isDigit = true ∨ c = '-' := by
  unfold formatI64 at h
  split_ifs at h
  · rcases List.mem_cons.mp h with rfl | hdigit
    · exact Or.inr rfl
    · exact Or.inl (digits_toDigits _ c hdigit)
  · exact Or.inl (digits_toDigits _ c h)

lemma mem_toFixed {digits : ℕ} {q : ℚ} {c : Char} (h : c ∈ (toFixed digits q).toList) :
    c.isDigit = true ∨ c = '-' ∨ c = '.' := by
  unfold toFixed at h
  simp only [String.toList_append, List.mem_append, String.toList_ofList, List.leftpad,
    List.mem_replicate, Nat.toString_eq_ofList_toDigits] at h
  rcases h with ((hsign | hwhole) | hpoint) | hzero | hfraction
  · split_ifs at hsign
    · exact Or.inr (Or.inl (List.mem_singleton.mp hsign))
    · cases hsign
  · exact Or.inl (digits_toDigits _ c hwhole)
  · exact Or.inr (Or.inr (List.mem_singleton.mp hpoint))
  · rw [hzero.2]
    exact Or.inl rfl
  · exact Or.inl (digits_toDigits _ c hfraction)

lemma ne_lineBreak_of_isDigit {c : Char} (h : c.isDigit = true) : c ≠ '\n' ∧ c ≠ '\r' := by
  constructor
  · rintro rfl
    cases h
  · rintro rfl
    cases h

lemma plain_of_isDigit {c : Char} (h : c.isDigit = true) :
    isWhitespace c = false ∧ (c == '"') = false := by
  have hrange : 48 ≤ c.toNat ∧ c.toNat ≤ 57 := by
    simpa [Char.isDigit, UInt32.le_iff_toNat_le] using h
  constructor
  · simp only [isWhitespace, Bool.or_eq_false_iff, Bool.and_eq_false_iff, decide_eq_false_iff_not,
      beq_eq_false_iff_ne]
    omega
  · rw [beq_eq_false_iff_ne]
    rintro rfl
    cases h

lemma lineBreak_notMem_formatF64 {x : Double} {c : Char} (h : c ∈ formatF64 x) :
    c ≠ '\n' ∧ c ≠ '\r' := by
  have hnumber : c.isDigit = true ∨ c = '-' ∨ c = '.' → c ≠ '\n' ∧ c ≠ '\r' := by
    rintro (hdigit | rfl | rfl)
    · exact ne_lineBreak_of_isDigit hdigit
    · decide
    · decide
  cases x with
  | nan =>
    have hall : ∀ c ∈ "NaN".toList, c ≠ '\n' ∧ c ≠ '\r' := by simp
    exact hall c h
  | infinite negative =>
    have hall : ∀ c ∈ "-inf".toList, c ≠ '\n' ∧ c ≠ '\r' := by simp
    cases negative with
    | true => exact hall c h
    | false => exact hall c (List.mem_cons_of_mem _ h)
  | finite value => exact hnumber (mem_toFixed h)

lemma lines_flatMap {ls : List Text} (hbreak : ∀ line ∈ ls, '\n' ∉ line)
    (hreturn : ∀ line ∈ ls, line.getLast? ≠ some '\r') :
    lines (ls.flatMap (· ++ ['\n'])) = ls := by
  have hsplit : (ls.flatMap (· ++ ['\n'])).splitOn '\n' = ls ++ [[]] := by
    clear hreturn
    induction ls with
    | nil => rfl
    | cons line ls ih =>
      rw [List.flatMap_cons, List.append_assoc, List.singleton_append,
        Utf8.splitOn_append_of_notMem (hbreak line (List.mem_cons_self ..)),
        List.splitOn_cons_eq_if_modifyHead,
        ih fun l hl => hbreak l (List.mem_cons_of_mem _ hl)]
      simp
  have hstrip : ls.map stripCarriageReturn = ls := by
    conv_rhs => rw [← List.map_id ls]
    exact List.map_congr_left fun line hline => if_neg (hreturn line hline)
  unfold lines
  rw [hsplit]
  simp [hstrip]

/-! ### Reading what was written -/

lemma trim_keyed (k r : Text) :
    trim (k ++ ':' :: r) = k.dropWhile isWhitespace ++ ':' :: r.rdropWhile isWhitespace :=
  strip_append_cons rfl k r

lemma rdropWhile_quoted (v : Text) :
    (' ' :: '"' :: (v ++ ['"'])).rdropWhile isWhitespace = ' ' :: '"' :: (v ++ ['"']) :=
  List.rdropWhile_concat_neg isWhitespace (' ' :: '"' :: v) '"' (by decide)

lemma unquote_trim_quoted (v : Text) : unquote (trim (' ' :: '"' :: (v ++ ['"']))) = unquote v := by
  have htrim : trim (' ' :: '"' :: (v ++ ['"'])) = '"' :: (v ++ ['"']) := by
    calc trim (' ' :: '"' :: (v ++ ['"']))
        = strip isWhitespace ('"' :: (v ++ ['"'])) := strip_cons_of_pos rfl _
      _ = '"' :: (v ++ ['"']).rdropWhile isWhitespace := strip_cons_of_neg rfl _
      _ = '"' :: (v ++ ['"']) := by rw [List.rdropWhile_concat_neg _ _ _ (by decide)]
  rw [htrim]
  exact strip_enclosed rfl rfl v

lemma splitOnce_eq_none {sep : Char} {s : Text} (h : splitOnce sep s = none) : sep ∉ s := by
  induction s with
  | nil => exact List.not_mem_nil
  | cons c s ih =>
    rw [splitOnce] at h
    split_ifs at h with hc
    rw [List.mem_cons, not_or]
    exact ⟨Ne.symm hc, ih (Option.map_eq_none_iff.mp h)⟩

namespace YamlScanner

variable {clock : ℕ → Int64} {s : YamlScanner}

/-- The keys that are not taken for something else. -/
structure IsProperty (key : String) : Prop extends PlainKey key.toList where
  nonempty : key.toList ≠ []
  actionMappings : key ≠ "action_mappings"
  sampleLogs : key ≠ "sample_logs"

lemma isProperty_of_mem {key : String} (h : key ∈ ["vendor", "device_model", "confidence_score",
    "created_at", "regex_pattern"]) : IsProperty key := by
  have hplain : ∀ key ∈ ["vendor", "device_model", "confidence_score", "created_at",
      "regex_pattern"], ':' ∉ key.toList ∧ key.toList.head? ≠ some '#' ∧ key.toList ≠ [] ∧
      key.toList.all (!isWhitespace ·) ∧ key ≠ "action_mappings" ∧ key ≠ "sample_logs" := by
    decide
  obtain ⟨hcolon, hcomment, hne, hspace, hmappings, hsamples⟩ := hplain key h
  have hbare : ∀ c ∈ key.toList, isWhitespace c = false := by
    intro c hc
    simpa using List.all_eq_true.mp hspace c hc
  exact
    { colon := hcolon
      bare := bare_of_forall hbare
      comment := hcomment
      nonempty := hne
      actionMappings := hmappings
      sampleLogs := hsamples }

variable (clock) in
lemma readLine_property (hmappings : s.inActionMappings = false)
    (hsamples : s.inSampleLogs = false) (key : String) (hkey : IsProperty key) (r : Text) :
    s.readLine clock (key.toList ++ ':' :: r) = s.setProperty clock key (unquote (trim r)) := by
  have htrim : trim (key.toList ++ ':' :: r) = key.toList ++ ':' :: r.rdropWhile isWhitespace := by
    rw [trim_keyed, dropWhile_eq_self hkey.bare]
  have hskip : ¬(trim (key.toList ++ ':' :: r) = [] ∨
      startsWith (trim (key.toList ++ ':' :: r)) "#" = true) := by
    rw [htrim]
    rintro (hnil | hcomment)
    · simp at hnil
    · rw [startsWith_comment_iff, List.head?_append_of_ne_nil _ hkey.nonempty] at hcomment
      exact hkey.comment hcomment
  have hheaderLine : ∀ header : String, ':' ∉ header.toList → key ≠ header →
      trim (key.toList ++ ':' :: r) ≠ header.toList ++ [':'] := by
    intro header hcolon hne heq
    rw [htrim] at heq
    have hsplit := congrArg (splitOnce ':') heq
    rw [splitOnce_append hkey.colon, splitOnce_append hcolon, Option.some.injEq,
      Prod.mk.injEq] at hsplit
    exact hne (String.toList_inj.mp hsplit.1)
  have hmappingsLine : trim (key.toList ++ ':' :: r) ≠ "action_mappings:".toList :=
    hheaderLine "action_mappings" (by decide) hkey.actionMappings
  have hsamplesLine : trim (key.toList ++ ':' :: r) ≠ "sample_logs:".toList :=
    hheaderLine "sample_logs" (by decide) hkey.sampleLogs
  unfold readLine
  dsimp only
  rw [if_neg hskip, if_neg hmappingsLine, if_neg hsamplesLine]
  unfold readMapping readSample readProperty
  rw [hmappings, hsamples, htrim, splitOnce_append hkey.colon]
  dsimp only
  have hname : trim key.toList = key.toList := strip_eq_self hkey.bare
  have hvalue : trim (r.rdropWhile isWhitespace) = trim r := strip_rdropWhile r
  rw [hname, hvalue, String.ofList_toList]
  rfl

def setMappings (s : YamlScanner) (m : AList fun _ : String => String) : YamlScanner :=
  { s with parsed.actionMappings := m }

def addSamples (s : YamlScanner) (samples : List String) : YamlScanner :=
  { s with parsed.sampleLogs := s.parsed.sampleLogs ++ samples }

lemma addSamples_addSamples (samples samples' : List String) :
    (s.addSamples samples).addSamples samples' = s.addSamples (samples ++ samples') := by
  simp [addSamples]

lemma trim_mappingLine (k v : String) : trim (ParserDefinition.mappingLine k v) =
    k.toList.dropWhile isWhitespace ++ ':' :: ' ' :: '"' :: (v.toList ++ ['"']) := by
  have hline : ParserDefinition.mappingLine k v =
      (' ' :: ' ' :: k.toList) ++ ':' :: ' ' :: '"' :: (v.toList ++ ['"']) := by
    change "  ".toList ++ k.toList ++ ": \"".toList ++ v.toList ++ ['"'] = _
    simp
  rw [hline, trim_keyed, rdropWhile_quoted]
  rfl

lemma trim_mappingLine_ne (k v : String) {header : Text} (h : header.getLast? = some ':') :
    trim (ParserDefinition.mappingLine k v) ≠ header := by
  rintro rfl
  have hconcat : k.toList.dropWhile isWhitespace ++ ':' :: ' ' :: '"' :: (v.toList ++ ['"']) =
      (k.toList.dropWhile isWhitespace ++ ':' :: ' ' :: '"' :: v.toList) ++ ['"'] := by simp
  rw [trim_mappingLine, hconcat, List.getLast?_concat] at h
  cases h

variable (clock) in
lemma readLine_mapping (hmappings : s.inActionMappings = true) (k v : String) :
    ∃ m, s.readLine clock (ParserDefinition.mappingLine k v) = s.setMappings m := by
  unfold readLine
  dsimp only
  split_ifs with hskip
  · exact ⟨s.parsed.actionMappings, rfl⟩
  · exact absurd ‹_› (trim_mappingLine_ne k v rfl)
  · exact absurd ‹_› (trim_mappingLine_ne k v rfl)
  · unfold readMapping
    rw [if_pos hmappings]
    split
    · exact ⟨_, rfl⟩
    · rename_i hsplit
      refine absurd ?_ (splitOnce_eq_none hsplit)
      rw [trim_mappingLine]
      exact List.mem_append_right _ (List.mem_cons_self ..)

lemma readLine_mapping_plain (hmappings : s.inActionMappings = true) {k v : String}
    (hk : PlainKey k.toList) (hv : Unquoted v.toList) :
    s.readLine clock (ParserDefinition.mappingLine k v) =
      s.setMappings (s.parsed.actionMappings.insert k v) := by
  have htrim : trim (ParserDefinition.mappingLine k v) =
      k.toList ++ ':' :: ' ' :: '"' :: (v.toList ++ ['"']) := by
    rw [trim_mappingLine, dropWhile_eq_self hk.bare]
  have hskip : ¬(trim (ParserDefinition.mappingLine k v) = [] ∨
      startsWith (trim (ParserDefinition.mappingLine k v)) "#" = true) := by
    rw [htrim, startsWith_comment_iff]
    rintro (hnil | hcomment)
    · simp at hnil
    · cases hlist : k.toList with
      | nil => rw [hlist] at hcomment; cases hcomment
      | cons c t =>
        rw [hlist] at hcomment
        exact hk.comment (by rw [hlist]; exact hcomment)
  have hkey : trim k.toList = k.toList := strip_eq_self hk.bare
  have hval : unquote v.toList = v.toList := strip_eq_self hv
  unfold readLine
  dsimp only
  rw [if_neg hskip, if_neg (trim_mappingLine_ne k v rfl), if_neg (trim_mappingLine_ne k v rfl)]
  unfold readMapping
  rw [if_pos hmappings, htrim, splitOnce_append hk.colon]
  dsimp only
  rw [hkey, unquote_trim_quoted, hval, String.ofList_toList, String.ofList_toList, setMappings]

lemma readLine_sample (hmappings : s.inActionMappings = false) (hsamples : s.inSampleLogs = true)
    (sample : String) :
    s.readLine clock (ParserDefinition.sampleLine sample) =
      s.addSamples [String.ofList (unquote (escapeQuotes sample.toList))] := by
  have htrim : trim (ParserDefinition.sampleLine sample) =
      '-' :: ' ' :: '"' :: (escapeQuotes sample.toList ++ ['"']) := by
    have hline : ParserDefinition.sampleLine sample =
        [' ', ' '] ++ '-' :: ' ' :: '"' :: (escapeQuotes sample.toList ++ ['"']) := rfl
    rw [hline]
    refine (strip_append_cons rfl _ _).trans ?_
    rw [rdropWhile_quoted]
    rfl
  have hvalue : unquote ('"' :: (escapeQuotes sample.toList ++ ['"'])) =
      unquote (escapeQuotes sample.toList) := strip_enclosed rfl rfl _
  unfold readLine
  dsimp only
  rw [htrim, if_neg (by rw [startsWith_comment_iff]; simp), if_neg (by simp), if_neg (by simp)]
  have hstrip : stripPrefix ('-' :: ' ' :: '"' :: (escapeQuotes sample.toList ++ ['"'])) "- " =
      some ('"' :: (escapeQuotes sample.toList ++ ['"'])) := rfl
  unfold readMapping readSample
  rw [if_neg (by rw [hmappings]; exact Bool.false_ne_true), if_pos hsamples, hstrip]
  dsimp only
  rw [hvalue, addSamples]

variable (clock) in
lemma foldl_mappingLine (hmappings : s.inActionMappings = true)
    (entries : List (Sigma fun _ : String => String)) :
    ∃ m, (entries.map fun e => ParserDefinition.mappingLine e.1 e.2).foldl (readLine clock) s =
      s.setMappings m := by
  induction entries generalizing s with
  | nil => exact ⟨s.parsed.actionMappings, rfl⟩
  | cons e entries ih =>
    obtain ⟨m, hm⟩ := readLine_mapping clock hmappings e.1 e.2
    rw [List.map_cons, List.foldl_cons, hm]
    exact ih hmappings

lemma foldl_mappingLine_plain (hmappings : s.inActionMappings = true)
    {entries : List (Sigma fun _ : String => String)}
    (hplain : ∀ e ∈ entries, PlainKey e.1.toList ∧ Unquoted e.2.toList) :
    (entries.map fun e => ParserDefinition.mappingLine e.1 e.2).foldl (readLine clock) s =
      s.setMappings (entries.foldl (fun m e => m.insert e.1 e.2) s.parsed.actionMappings) := by
  induction entries generalizing s with
  | nil => rfl
  | cons e entries ih =>
    have he := hplain e (List.mem_cons_self ..)
    rw [List.map_cons, List.foldl_cons, readLine_mapping_plain hmappings he.1 he.2]
    exact ih hmappings fun e' he' => hplain e' (List.mem_cons_of_mem _ he')

lemma foldl_sampleLine (hmappings : s.inActionMappings = false) (hsamples : s.inSampleLogs = true)
    (samples : List String) :
    (samples.map ParserDefinition.sampleLine).foldl (readLine clock) s =
      s.addSamples
        (samples.map fun sample => String.ofList (unquote (escapeQuotes sample.toList))) := by
  induction samples generalizing s with
  | nil => simp [addSamples]
  | cons sample samples ih =>
    rw [List.map_cons, List.foldl_cons, readLine_sample hmappings hsamples,
      ih (s := s.addSamples _) hmappings hsamples, addSamples_addSamples]
    rfl

end YamlScanner

lemma lookup_foldl_insert {entries : List (Sigma fun _ : String => String)}
    (hkeys : entries.NodupKeys) (m : AList fun _ : String => String) (k : String) :
    (entries.foldl (fun m e => m.insert e.1 e.2) m).lookup k =
      (entries.dlookup k).or (m.lookup k) := by
  induction entries generalizing m with
  | nil => rfl
  | cons e entries ih =>
    rw [List.nodupKeys_cons] at hkeys
    rw [List.foldl_cons, ih hkeys.2]
    by_cases hk : k = e.1
    · subst hk
      have hnone : entries.dlookup e.1 = none := List.dlookup_eq_none.mpr hkeys.1
      rw [hnone, AList.lookup_insert, List.dlookup_cons_eq]
      rfl
    · rw [AList.lookup_insert_ne hk, List.dlookup_cons_ne _ _ hk]

namespace ParserDefinition

/-! ### The round trip -/

/-- No text of the definition contains a line feed. -/
structure NoLineBreaks (d : ParserDefinition) : Prop where
  vendor : '\n' ∉ d.vendor.toList
  deviceModel : '\n' ∉ d.deviceModel.toList
  regexPattern : '\n' ∉ d.regexPattern.toList
  actionMappings : ∀ e ∈ d.actionMappings.entries, '\n' ∉ e.1.toList ∧ '\n' ∉ e.2.toList
  sampleLogs : ∀ sample ∈ d.sampleLogs, '\n' ∉ sample.toList

/-- The definitions that come back as they were. -/
structure YamlSafe (d : ParserDefinition) : Prop where
  vendor : Unquoted d.vendor.toList
  deviceModel : Unquoted d.deviceModel.toList
  regexPattern : '"' ∉ d.regexPattern.toList
  mappings : ∀ k v, d.actionMappings.lookup k = some v → PlainKey k.toList ∧ Unquoted v.toList
  sampleLogs : ∀ sample ∈ d.sampleLogs, '"' ∉ sample.toList

/-- The definitions agree in all but the confidence score; the mappings agree as maps. -/
structure SameExport (d e : ParserDefinition) : Prop where
  vendor : e.vendor = d.vendor
  deviceModel : e.deviceModel = d.deviceModel
  regexPattern : e.regexPattern = d.regexPattern
  createdAt : e.createdAt = d.createdAt
  mappings : ∀ k, e.actionMappings.lookup k = d.actionMappings.lookup k
  sampleLogs : e.sampleLogs = d.sampleLogs

lemma mem_replaceChar {c x : Char} {rep : String} {s : Text} (h : x ∈ replaceChar c rep s) :
    x ∈ s ∨ x ∈ rep.toList := by
  obtain ⟨y, hy, hx⟩ := List.mem_flatMap.mp h
  split_ifs at hx
  · exact Or.inr hx
  · exact Or.inl (by rwa [List.mem_singleton.mp hx])

lemma lineBreak_notMem_escapeQuotes {s : Text} (h : '\n' ∉ s) : '\n' ∉ escapeQuotes s := by
  intro hmem
  rcases mem_replaceChar hmem with hold | hnew
  · exact h hold
  · exact absurd hnew (by decide)

/-- A line that is not cut and keeps its end. -/
def WrittenLine (line : Text) : Prop := '\n' ∉ line ∧ line.getLast? ≠ some '\r'

lemma writtenLine_quoted {first s : Text} (hfirst : '\n' ∉ first) (hs : '\n' ∉ s) :
    WrittenLine (first ++ s ++ ['"']) := by
  refine ⟨by simp [hfirst, hs], ?_⟩
  rw [List.getLast?_concat]
  decide

lemma writtenLine_append {first s : Text} (hfirst : ∀ c ∈ first, c ≠ '\n' ∧ c ≠ '\r')
    (hs : ∀ c ∈ s, c ≠ '\n' ∧ c ≠ '\r') : WrittenLine (first ++ s) := by
  have hall : ∀ c ∈ first ++ s, c ≠ '\n' ∧ c ≠ '\r' := by
    intro c hc
    rcases List.mem_append.mp hc with h | h
    · exact hfirst c h
    · exact hs c h
  exact ⟨fun hmem => (hall _ hmem).1 rfl, fun hlast => (hall _ (List.mem_of_getLast? hlast)).2 rfl⟩

lemma writtenLine_of_mem {d : ParserDefinition} (h : d.NoLineBreaks) :
    ∀ line ∈ d.yamlLines, WrittenLine line := by
  have hcreatedAt : ∀ c ∈ formatI64 d.createdAt, c ≠ '\n' ∧ c ≠ '\r' := by
    intro c hc
    rcases mem_formatI64 hc with hdigit | rfl
    · exact ne_lineBreak_of_isDigit hdigit
    · decide
  have hpattern : '\n' ∉ replaceChar '\\' "\\\\" d.regexPattern.toList := by
    intro hmem
    rcases mem_replaceChar hmem with hold | hnew
    · exact h.regexPattern hold
    · exact absurd hnew (by decide)
  intro line hline
  simp only [yamlLines, List.mem_append, List.mem_cons, List.mem_map, List.not_mem_nil,
    or_false] at hline
  rcases hline with ((hheader | ⟨e, he, rfl⟩) | rfl) | ⟨sample, hsample, rfl⟩
  · rcases hheader with rfl | rfl | rfl | rfl | rfl | rfl
    · exact writtenLine_quoted (by decide) h.vendor
    · exact writtenLine_quoted (by decide) h.deviceModel
    · exact writtenLine_append (by simp) fun c => lineBreak_notMem_formatF64
    · exact writtenLine_append (by simp) hcreatedAt
    · exact writtenLine_quoted (by decide) (lineBreak_notMem_escapeQuotes hpattern)
    · exact ⟨by decide, by decide⟩
  · obtain ⟨hk, hv⟩ := h.actionMappings e he
    exact writtenLine_quoted (by simp [hk]) hv
  · exact ⟨by decide, by decide⟩
  · exact writtenLine_quoted (by decide)
      (lineBreak_notMem_escapeQuotes (h.sampleLogs sample hsample))

/-- What the emitter writes is cut into the lines that it wrote. -/
lemma lines_toYaml {d : ParserDefinition} (h : d.NoLineBreaks) : lines d.toYaml = d.yamlLines :=
  lines_flatMap (fun line hline => (writtenLine_of_mem h line hline).1)
    fun line hline => (writtenLine_of_mem h line hline).2

/-- What is read back, but for the mappings and the confidence score. -/
def recovered (d : ParserDefinition) (m : AList fun _ : String => String) (c : Double) :
    ParserDefinition where
  vendor := String.ofList (unquote d.vendor.toList)
  deviceModel := String.ofList (unquote d.deviceModel.toList)
  regexPattern := String.ofList (unquote (escapeQuotes d.regexPattern.toList))
  actionMappings := m
  sampleLogs :=
    d.sampleLogs.map fun sample => String.ofList (unquote (escapeQuotes sample.toList))
  confidenceScore := c
  createdAt := d.createdAt

section Scan

variable {clock : ℕ → Int64} (d : ParserDefinition)

open YamlScanner

lemma readLine_quoted {s : YamlScanner} (hmappings : s.inActionMappings = false)
    (hsamples : s.inSampleLogs = false) (key : String) (hkey : IsProperty key) (v : Text) :
    s.readLine clock (key.toList ++ ": \"".toList ++ v ++ ['"']) =
      s.setProperty clock key (unquote v) := by
  have hline : key.toList ++ ": \"".toList ++ v ++ ['"'] =
      key.toList ++ ':' :: ' ' :: '"' :: (v ++ ['"']) := by
    rw [List.append_assoc, List.append_assoc]
    rfl
  rw [hline, readLine_property clock hmappings hsamples key hkey, unquote_trim_quoted]

section Header

variable {s : YamlScanner}

lemma readLine_vendorLine (hmappings : s.inActionMappings = false)
    (hsamples : s.inSampleLogs = false) : s.readLine clock (vendorLine d.vendor) =
      { s with parsed.vendor := String.ofList (unquote d.vendor.toList) } := by
  have hline : vendorLine d.vendor =
      "vendor".toList ++ ": \"".toList ++ d.vendor.toList ++ ['"'] := by
    change "vendor: \"".toList ++ d.vendor.toList ++ ['"'] = _
    simp
  rw [hline]
  exact readLine_quoted hmappings hsamples "vendor" (isProperty_of_mem (by simp)) _

lemma readLine_deviceModelLine (hmappings : s.inActionMappings = false)
    (hsamples : s.inSampleLogs = false) : s.readLine clock (deviceModelLine d.deviceModel) =
      { s with parsed.deviceModel := String.ofList (unquote d.deviceModel.toList) } := by
  have hline : deviceModelLine d.deviceModel =
      "device_model".toList ++ ": \"".toList ++ d.deviceModel.toList ++ ['"'] := by
    change "device_model: \"".toList ++ d.deviceModel.toList ++ ['"'] = _
    simp
  rw [hline]
  exact readLine_quoted hmappings hsamples "device_model" (isProperty_of_mem (by simp)) _

variable (clock) in
lemma readLine_confidenceLine (hmappings : s.inActionMappings = false)
    (hsamples : s.inSampleLogs = false) : ∃ c,
      s.readLine clock (confidenceLine d.confidenceScore) =
        { s with parsed.confidenceScore := c } := by
  have hline : confidenceLine d.confidenceScore =
      "confidence_score".toList ++ ':' :: ' ' :: formatF64 d.confidenceScore := by
    change "confidence_score: ".toList ++ formatF64 d.confidenceScore = _
    simp
  rw [hline]
  exact ⟨_, readLine_property clock hmappings hsamples "confidence_score"
    (isProperty_of_mem (by simp)) _⟩

lemma readLine_createdAtLine (hmappings : s.inActionMappings = false)
    (hsamples : s.inSampleLogs = false) :
    s.readLine clock (createdAtLine d.createdAt) = { s with parsed.createdAt := d.createdAt } := by
  have hplain : ∀ c ∈ formatI64 d.createdAt, isWhitespace c = false ∧ (c == '"') = false := by
    intro c hc
    rcases mem_formatI64 hc with hdigit | rfl
    · exact plain_of_isDigit hdigit
    · decide
  have htext : unquote (trim (' ' :: formatI64 d.createdAt)) = formatI64 d.createdAt := by
    have htrim : trim (' ' :: formatI64 d.createdAt) = formatI64 d.createdAt :=
      (strip_cons_of_pos rfl _).trans (strip_eq_self (bare_of_forall fun c hc => (hplain c hc).1))
    rw [htrim]
    exact strip_eq_self (bare_of_forall fun c hc => (hplain c hc).2)
  have hset : s.setProperty clock "created_at" (formatI64 d.createdAt) =
      { s with parsed.createdAt := d.createdAt } := by
    unfold setProperty
    rw [parseI64_formatI64]
    rfl
  have hline : createdAtLine d.createdAt =
      "created_at".toList ++ ':' :: ' ' :: formatI64 d.createdAt := by
    change "created_at: ".toList ++ formatI64 d.createdAt = _
    simp
  rw [hline, readLine_property clock hmappings hsamples "created_at" (isProperty_of_mem (by simp)),
    htext, hset]

lemma readLine_regexLine (hmappings : s.inActionMappings = false)
    (hsamples : s.inSampleLogs = false) : s.readLine clock (regexLine d.regexPattern) =
      { s with parsed.regexPattern :=
          String.ofList (unquote (escapeQuotes d.regexPattern.toList)) } := by
  have hline : regexLine d.regexPattern = "regex_pattern".toList ++ ": \"".toList ++
      escapeQuotes (replaceChar '\\' "\\\\" d.regexPattern.toList) ++ ['"'] := by
    change "regex_pattern: \"".toList ++
      escapeQuotes (replaceChar '\\' "\\\\" d.regexPattern.toList) ++ ['"'] = _
    simp
  rw [hline, ← replace_unquote_doubled]
  exact readLine_quoted hmappings hsamples "regex_pattern" (isProperty_of_mem (by simp)) _

variable (clock) in
lemma foldl_header : ∃ c,
    [vendorLine d.vendor, deviceModelLine d.deviceModel, confidenceLine d.confidenceScore,
      createdAtLine d.createdAt, regexLine d.regexPattern, "action_mappings:".toList].foldl
        (readLine clock) (start clock) =
      ⟨{ d.recovered ∅ c with sampleLogs := [] }, true, false, 1⟩ := by
  simp only [List.foldl_cons, List.foldl_nil]
  rw [readLine_vendorLine d rfl rfl, readLine_deviceModelLine d rfl rfl]
  obtain ⟨c, hconfidence⟩ := readLine_confidenceLine clock d
    (s := { start clock with
      parsed.vendor := String.ofList (unquote d.vendor.toList)
      parsed.deviceModel := String.ofList (unquote d.deviceModel.toList) }) rfl rfl
  refine ⟨c, ?_⟩
  rw [hconfidence, readLine_createdAtLine d rfl rfl, readLine_regexLine d rfl rfl]
  rfl

end Header

variable (clock) in
lemma foldl_yamlLines : ∃ m c,
    (d.yamlLines.foldl (readLine clock) (start clock)).parsed = d.recovered m c ∧
      ((∀ e ∈ d.actionMappings.entries, PlainKey e.1.toList ∧ Unquoted e.2.toList) →
        ∀ k, m.lookup k = d.actionMappings.lookup k) := by
  obtain ⟨c, hheader⟩ := foldl_header clock d
  set s : YamlScanner := ⟨{ d.recovered ∅ c with sampleLogs := [] }, true, false, 1⟩ with hs
  obtain ⟨m, hm⟩ := foldl_mappingLine clock (s := s) rfl d.actionMappings.entries
  refine ⟨m, c, ?_, ?_⟩
  · have hsection : (s.setMappings m).readLine clock "sample_logs:".toList =
        ⟨{ d.recovered m c with sampleLogs := [] }, false, true, 1⟩ := rfl
    rw [yamlLines, List.foldl_append, List.foldl_append, List.foldl_append, hheader, hm,
      List.foldl_cons, List.foldl_nil, hsection, foldl_sampleLine rfl rfl]
    rfl
  · intro hplain k
    have hmappings := (hm.symm.trans (foldl_mappingLine_plain rfl hplain))
    have hsame : m = d.actionMappings.entries.foldl (fun m e => m.insert e.1 e.2) ∅ :=
      congrArg (·.parsed.actionMappings) hmappings
    rw [hsame, lookup_foldl_insert d.actionMappings.nodupKeys, AList.lookup_empty, Option.or_none]
    rfl

end Scan

lemma ofList_unquote_eq_iff {t : String} :
    String.ofList (unquote t.toList) = t ↔ Unquoted t.toList := by
  rw [← String.toList_inj, String.toList_ofList]
  exact strip_eq_self_iff

lemma ofList_unquote_escapeQuotes_eq_iff {t : String} :
    String.ofList (unquote (escapeQuotes t.toList)) = t ↔ '"' ∉ t.toList := by
  rw [← String.toList_inj, String.toList_ofList]
  exact unquote_escapeQuotes_eq_self_iff

lemma recovered_pattern_ne {d : ParserDefinition} (h : d.regexPattern ≠ "")
    (m : AList fun _ : String => String) (c : Double) : (d.recovered m c).regexPattern ≠ "" := by
  intro hempty
  rw [recovered] at hempty
  have hcount := count_unquote_escapeQuotes d.regexPattern.toList
  rw [String.ofList_eq_empty_iff.mp hempty, List.count_nil] at hcount
  have hquote : '"' ∉ d.regexPattern.toList := List.count_eq_zero.mp (by omega)
  rw [ofList_unquote_escapeQuotes_eq_iff.mpr hquote] at hempty
  exact h hempty

lemma sameExport_recovered_iff {d : ParserDefinition} {m : AList fun _ : String => String}
    {c : Double} (hscanned : Scanned (d.recovered m c))
    (hplain : (∀ e ∈ d.actionMappings.entries, PlainKey e.1.toList ∧ Unquoted e.2.toList) →
      ∀ k, m.lookup k = d.actionMappings.lookup k) :
    d.SameExport (d.recovered m c) ↔ d.YamlSafe := by
  constructor
  · intro hsame
    refine
      { vendor := ofList_unquote_eq_iff.mp hsame.vendor
        deviceModel := ofList_unquote_eq_iff.mp hsame.deviceModel
        regexPattern := ofList_unquote_escapeQuotes_eq_iff.mp hsame.regexPattern
        mappings := ?_
        sampleLogs := ?_ }
    · intro k v hlookup
      exact hscanned.mappings k v ((hsame.mappings k).trans hlookup)
    · intro sample hsample
      have hmap := List.map_inj_left.mp (hsame.sampleLogs.trans (List.map_id _).symm)
      exact ofList_unquote_escapeQuotes_eq_iff.mp (hmap sample hsample)
  · intro hsafe
    refine
      { vendor := ofList_unquote_eq_iff.mpr hsafe.vendor
        deviceModel := ofList_unquote_eq_iff.mpr hsafe.deviceModel
        regexPattern := ofList_unquote_escapeQuotes_eq_iff.mpr hsafe.regexPattern
        createdAt := rfl
        mappings := ?_
        sampleLogs := ?_ }
    · exact hplain fun e he => hsafe.mappings e.1 e.2 (AList.mem_lookup_iff.mpr he)
    · refine Eq.trans (List.map_congr_left fun sample hsample => ?_) (List.map_id _)
      exact ofList_unquote_escapeQuotes_eq_iff.mpr (hsafe.sampleLogs sample hsample)

/-- A definition comes back from YAML exactly if its quotes and its keys are harmless. -/
theorem yaml_round_trip_iff {clock : ℕ → Int64} {fromJson : Text → Option ParserDefinition}
    (hjson : ∀ s, fromJson ('v' :: s) = none) {d : ParserDefinition}
    (hpattern : d.regexPattern ≠ "") (hbreaks : d.NoLineBreaks) :
    (∃ e, fromYaml clock fromJson d.toYaml = .ok e ∧ d.SameExport e) ↔ d.YamlSafe := by
  obtain ⟨m, c, hscan, hplain⟩ := foldl_yamlLines clock d
  have hread : fromYaml clock fromJson d.toYaml = .ok (d.recovered m c) := by
    have hreject : fromJson d.toYaml = none := hjson _
    unfold fromYaml
    rw [hreject]
    dsimp only
    rw [lines_toYaml hbreaks, hscan, if_neg (recovered_pattern_ne hpattern m c)]
  have hscanned : Scanned (d.recovered m c) := by
    rw [← hscan]
    exact YamlScanner.scanned_foldl YamlScanner.scanned_start _
  rw [← sameExport_recovered_iff hscanned hplain, hread]
  constructor
  · rintro ⟨e, he, hsame⟩
    cases he
    exact hsame
  · intro hsame
    exact ⟨_, rfl, hsame⟩

/-- A definition with one mapping and one sample. -/
def single (regexPattern sample : String) : ParserDefinition where
  vendor := "Acme"
  deviceModel := "FW-1"
  regexPattern := regexPattern
  actionMappings := (∅ : AList fun _ : String => String).insert "deny" "Blocked"
  sampleLogs := [sample]
  confidenceScore := .finite 1
  createdAt := 1700000000000

lemma mem_entries_single {regexPattern sample : String} {e : Sigma fun _ : String => String}
    (h : e ∈ (single regexPattern sample).actionMappings.entries) : e = ⟨"deny", "Blocked"⟩ :=
  List.mem_singleton.mp h

theorem yaml_round_trip_single : ∃ e,
    fromYaml (fun _ => 0) (fun _ => none)
      (single r"^src=(?P<src_ip>\S+)$" "src=10.0.0.1").toYaml = .ok e ∧
      (single r"^src=(?P<src_ip>\S+)$" "src=10.0.0.1").SameExport e := by
  refine (yaml_round_trip_iff (fun _ => rfl) (by decide) ?_).mpr ?_
  · refine ⟨by decide, by decide, by decide, fun e he => ?_, by decide⟩
    rw [mem_entries_single he]
    decide
  · refine ⟨⟨by simp [single], by simp [single]⟩, ⟨by simp [single], by simp [single]⟩, by decide,
      fun k v hlookup => ?_, by decide⟩
    cases mem_entries_single (AList.mem_lookup_iff.mp hlookup)
    exact ⟨⟨by simp, ⟨by simp [isWhitespace], by simp [isWhitespace]⟩, by simp⟩, ⟨by simp, by simp⟩⟩

/-- A sample with a quoted value comes back with a backslash before each quote. -/
theorem quoted_sample_not_restored :
    (single r"^src=(?P<src_ip>\S+)$" "src=10.0.0.1 msg=\"ok\" end").NoLineBreaks ∧
      ¬∃ e, fromYaml (fun _ => 0) (fun _ => none)
        (single r"^src=(?P<src_ip>\S+)$" "src=10.0.0.1 msg=\"ok\" end").toYaml = .ok e ∧
        (single r"^src=(?P<src_ip>\S+)$" "src=10.0.0.1 msg=\"ok\" end").SameExport e := by
  refine ⟨⟨by decide, by decide, by decide, fun e he => ?_, by decide⟩, ?_⟩
  · rw [mem_entries_single he]
    decide
  · rintro ⟨e, he, hsame⟩
    have hread : (fromYaml (fun _ => 0) (fun _ => none)
        (single r"^src=(?P<src_ip>\S+)$" "src=10.0.0.1 msg=\"ok\" end").toYaml).map
          (·.sampleLogs) = .ok ["src=10.0.0.1 msg=\\\"ok\\\" end"] := by decide +kernel
    rw [he] at hread
    have hlogs := hsame.sampleLogs.symm.trans (Except.ok.inj hread)
    exact absurd hlogs (by decide)

end ParserDefinition

end Ulpf.Ai
