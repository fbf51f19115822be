import Ulpf.Core.Extractors.KvSlices
import Ulpf.Library.Strip

/-!
# When the tokenizer is total

Every item takes an `=`, so the calls of `next` come to an end. None of them panics exactly if
each `=` outside the values follows a separator of one byte, or none since the last value.
-/

namespace Ulpf.Core.KvTokenizer

variable {isAlphanumeric : Char → Bool}

/-! ### Items and signs -/

lemma value_suffix (afterEq : Text) : (value afterEq).2 <:+ afterEq := by
  unfold value
  split
  · next inner =>
    cases hquoted : quoted false inner with
    | none => exact List.nil_suffix
    | some p =>
      obtain ⟨val, rest⟩ := p
      exact ⟨'"' :: (val ++ ['"']), by simp [quoted_eq_some hquoted]⟩
  · exact List.dropWhile_suffix _

lemma count_splitPair {s rest : Text} {pair : Text × Text} (h : splitPair s = some (pair, rest)) :
    rest.count '=' < s.count '=' := by
  unfold splitPair at h
  dsimp only at h
  rcases exists_first_cut (· == '=') (trimStart s) with
    hnone | ⟨rawKey, c, afterEq, hsplit, hraw, hc⟩
  · have hdrop : (trimStart s).dropWhile (· != '=') = [] := (takeWhile_not_eq_self hnone).2
    rw [hdrop] at h
    cases h
  · have hdrop : (rawKey ++ c :: afterEq).dropWhile (· != '=') = c :: afterEq :=
      (takeWhile_not_append_cons hraw hc afterEq).2
    rw [hsplit, hdrop] at h
    cases h
    have hvalue := (value_suffix afterEq).sublist.count_le '='
    have htrim : (trimStart s).count '=' ≤ s.count '=' :=
      (List.dropWhile_sublist isWhitespace).count_le '='
    rw [hsplit, List.count_append, beq_iff_eq.mp hc, List.count_cons_self] at htrim
    omega

lemma Yields.length_le {s : Text} {pairs : List (Text × Text)}
    (h : Yields isAlphanumeric s pairs) : pairs.length ≤ s.count '=' := by
  induction h with
  | done => exact Nat.zero_le _
  | @item s left pair pairs h hrest ih =>
    rw [next_eq] at h
    cases hpair : splitPair s with
    | none => simp [hpair] at h
    | some p =>
      obtain ⟨⟨rawKey, val⟩, rest⟩ := p
      rw [hpair, Option.map_eq_some_iff] at h
      obtain ⟨key, -, heq⟩ := h
      cases heq
      have hcount := count_splitPair hpair
      rw [List.length_cons]
      omega

lemma trim_sublist (s : Text) : (trim s).Sublist s :=
  (List.rdropWhile_prefix isWhitespace _).sublist.trans (List.dropWhile_sublist isWhitespace)

lemma yields_iff {s : Text} {pairs : List (Text × Text)} :
    Yields isAlphanumeric s pairs ↔
      ((rawPairs s).mapM fun (rawKey, val) =>
        (keyOf isAlphanumeric rawKey).map fun key => (key, val)) = some pairs := by
  constructor
  · intro h
    induction h with
    | @done s left h =>
      rw [next_eq] at h
      rw [rawPairs_eq]
      cases hpair : splitPair s with
      | none => rfl
      | some p => simp [hpair] at h
    | @item s left pair pairs h hrest ih =>
      rw [next_eq] at h
      rw [rawPairs_eq]
      cases hpair : splitPair s with
      | none => simp [hpair] at h
      | some p =>
        obtain ⟨⟨rawKey, val⟩, rest⟩ := p
        rw [hpair, Option.map_eq_some_iff] at h
        obtain ⟨key, hkey, heq⟩ := h
        cases heq
        simp [hkey, ih]
  · induction hn : s.length using Nat.strong_induction_on generalizing s pairs with
    | h n ih =>
      intro h
      rw [rawPairs_eq] at h
      cases hpair : splitPair s with
      | none =>
        rw [hpair] at h
        cases h
        exact .done (by rw [next_eq, hpair])
      | some p =>
        obtain ⟨⟨rawKey, val⟩, rest⟩ := p
        have hlt := length_splitPair hpair
        rw [hpair, List.mapM_cons] at h
        obtain ⟨pair, hkey, h⟩ := Option.bind_eq_some_iff.mp h
        obtain ⟨pairs', hpairs, h⟩ := Option.bind_eq_some_iff.mp h
        cases h
        refine .item ?_ (ih rest.length (hn ▸ hlt) rfl hpairs)
        obtain ⟨key, hword, rfl⟩ := Option.map_eq_some_iff.mp hkey
        rw [next_eq, hpair]
        exact Option.map_eq_some_iff.mpr ⟨key, hword, rfl⟩

lemma tokenizes_iff {input : Text} {pairs : List (Text × Text)} :
    Tokenizes isAlphanumeric input pairs ↔ collect isAlphanumeric input = some pairs := yields_iff

/-! ### Signs outside the values -/

/-- Where a text leaves off: after a value and the pending text since then, or in a value. -/
inductive Place where
  | between (pending : Text)
  | valueStart
  | bare
  | quoted (escaped : Bool)

def Place.step : Place → Char → Place
  | .between pending, c => if c = '=' then .valueStart else .between (pending ++ [c])
  | .valueStart, c =>
    if c = '"' then .quoted false else if isWhitespace c then .between [c] else .bare
  | .bare, c => if isWhitespace c then .between [c] else .bare
  | .quoted escaped, c =>
    if !escaped && c == '"' then .between [] else .quoted (!escaped && c == '\\')

/-- The separator before each `=` outside the values is one byte, if there is one. Whitespace
right after a value does not count. -/
def NarrowSeparators (s : Text) : Prop :=
  ∀ before after pending, s = before ++ '=' :: after →
    before.foldl Place.step (.between []) = .between pending →
      ∀ c, lastSeparator (trimStart pending) = some c → c.utf8Size = 1

/-- The pending text if the character ends it. -/
def Place.keyText : Place → Char → Option Text
  | .between pending, c => if c = '=' then some pending else none
  | .valueStart, _ => none
  | .bare, _ => none
  | .quoted _, _ => none

/-- The pending texts before the signs outside the values. -/
def pendings : Place → Text → List Text
  | _, [] => []
  | p, c :: s => (p.keyText c).toList ++ pendings (p.step c) s

lemma keyText_eq_some_iff {p : Place} {c : Char} {pending : Text} :
    p.keyText c = some pending ↔ p = .between pending ∧ c = '=' := by
  cases p with
  | between text =>
    rw [Place.keyText]
    split_ifs with hc <;> simp [hc]
  | _ => simp [Place.keyText]

lemma mem_pendings_iff {p : Place} {s pending : Text} :
    pending ∈ pendings p s ↔ ∃ before after,
      s = before ++ '=' :: after ∧ before.foldl Place.step p = .between pending := by
  induction s generalizing p with
  | nil => simp [pendings]
  | cons c s ih =>
    rw [pendings, List.mem_append, Option.mem_toList, keyText_eq_some_iff, ih]
    constructor
    · rintro (⟨rfl, rfl⟩ | ⟨before, after, rfl, hplace⟩)
      · exact ⟨[], s, rfl, rfl⟩
      · exact ⟨c :: before, after, rfl, hplace⟩
    · rintro ⟨before, after, hsplit, hplace⟩
      cases before with
      | nil =>
        cases hsplit
        exact Or.inl ⟨hplace, rfl⟩
      | cons d before =>
        cases hsplit
        exact Or.inr ⟨before, after, rfl, hplace⟩

lemma narrowSeparators_iff {s : Text} :
    NarrowSeparators s ↔ ∀ pending ∈ pendings (.between []) s,
      ∀ c, lastSeparator (trimStart pending) = some c → c.utf8Size = 1 := by
  constructor
  · intro h pending hpending
    obtain ⟨before, after, hsplit, hplace⟩ := mem_pendings_iff.mp hpending
    exact h before after pending hsplit hplace
  · intro h before after pending hsplit hplace
    exact h pending (mem_pendings_iff.mpr ⟨before, after, hsplit, hplace⟩)

lemma pendings_between {rawKey : Text} (h : ∀ c ∈ rawKey, (c == '=') = false) (pending s : Text) :
    pendings (.between pending) (rawKey ++ s) = pendings (.between (pending ++ rawKey)) s := by
  induction rawKey generalizing pending with
  | nil => rw [List.nil_append, List.append_nil]
  | cons c rawKey ih =>
    rw [List.forall_mem_cons, beq_eq_false_iff_ne] at h
    rw [List.cons_append, pendings, Place.keyText, Place.step, if_neg h.1, if_neg h.1,
      ih h.2, List.append_assoc]
    rfl

lemma pendings_quoted (escaped : Bool) (s : Text) :
    pendings (.quoted escaped) s =
      pendings (.between []) (((quoted escaped s).map Prod.snd).getD []) := by
  induction s generalizing escaped with
  | nil => rfl
  | cons c s ih =>
    rw [pendings, Place.keyText, Place.step, quoted]
    split_ifs with hclose
    · rfl
    · rw [ih, Option.map_map]
      rfl

lemma pendings_bare (s : Text) :
    pendings .bare s = pendings (.between []) (s.dropWhile (!isWhitespace ·)) := by
  induction s with
  | nil => rfl
  | cons c s ih =>
    rw [pendings, Place.keyText, Place.step]
    cases hc : isWhitespace c with
    | true =>
      have hsign : c ≠ '=' := by
        rintro rfl
        exact absurd hc (by decide)
      simp [hc, pendings, Place.keyText, Place.step, hsign]
    | false => simpa [hc] using ih

lemma pendings_valueStart (afterEq : Text) :
    pendings .valueStart afterEq = pendings (.between []) (value afterEq).2 := by
  cases afterEq with
  | nil => rfl
  | cons c s =>
    rw [pendings, Place.keyText, Place.step]
    by_cases hquote : c = '"'
    · subst hquote
      have hvalue : (value ('"' :: s)).2 = ((quoted false s).map Prod.snd).getD [] := by
        rw [value]
        cases quoted false s <;> rfl
      rw [if_pos rfl, hvalue]
      exact pendings_quoted false s
    · have hvalue : (value (c :: s)).2 = (c :: s).dropWhile (!isWhitespace ·) := by
        unfold value
        split
        · next inner heq =>
          cases heq
          exact absurd rfl hquote
        · rfl
      rw [if_neg hquote, hvalue, ← pendings_bare, pendings, Place.keyText, Place.step]

lemma pendings_eq_nil {rawKey : Text} (h : ∀ c ∈ rawKey, (c == '=') = false) (pending : Text) :
    pendings (.between pending) rawKey = [] := by
  rw [← List.append_nil rawKey, pendings_between h]
  rfl

lemma trimStart_append {ws : Text} (h : ∀ c ∈ ws, isWhitespace c = true) (s : Text) :
    trimStart (ws ++ s) = trimStart s := by
  unfold trimStart
  rw [List.dropWhile_append_of_pos h]

lemma trimStart_decompose (s : Text) :
    ∃ ws, (∀ c ∈ ws, isWhitespace c = true) ∧ s = ws ++ trimStart s ∧
      ∀ c ∈ (trimStart s).head?, isWhitespace c = false := by
  refine ⟨s.takeWhile isWhitespace, fun c hc => List.mem_takeWhile_imp hc,
    List.takeWhile_append_dropWhile.symm, ?_⟩
  intro c hc
  have hhead := List.head?_dropWhile_not isWhitespace s
  rw [trimStart, Option.mem_def] at hc
  rw [hc] at hhead
  simpa using hhead

lemma trimStart_eq_self {s : Text} (h : ∀ c ∈ s.head?, isWhitespace c = false) :
    trimStart s = s := by
  cases s with
  | nil => rfl
  | cons c s => exact List.dropWhile_cons_of_neg (by simp [h c rfl])

/-- The pending texts are the keys of the walk before they are cut out. -/
lemma pendings_start (s : Text) :
    (pendings (.between []) s).map trimStart = (rawPairs s).map Prod.fst := by
  induction hn : s.length using Nat.strong_induction_on generalizing s with
  | h n ih =>
    obtain ⟨ws, hws, hsplit, hhead⟩ := trimStart_decompose s
    have hwsSign : ∀ c ∈ ws, (c == '=') = false := by
      intro c hc
      rw [beq_eq_false_iff_ne]
      rintro rfl
      exact absurd (hws _ hc) (by decide)
    rw [rawPairs_eq]
    rcases exists_first_cut (· == '=') (trimStart s) with
      hnone | ⟨rawKey, c, afterEq, hcut, hraw, hc⟩
    · have hpair : splitPair s = none := by
        have hdrop : (trimStart s).dropWhile (· != '=') = [] := (takeWhile_not_eq_self hnone).2
        rw [splitPair, hdrop]
      have hall : ∀ d ∈ s, (d == '=') = false := by
        rw [hsplit]
        exact List.forall_mem_append.mpr ⟨hwsSign, hnone⟩
      rw [pendings_eq_nil hall, hpair]
      rfl
    · have htake : (rawKey ++ c :: afterEq).takeWhile (· != '=') = rawKey :=
        (takeWhile_not_append_cons hraw hc afterEq).1
      have hdrop : (rawKey ++ c :: afterEq).dropWhile (· != '=') = c :: afterEq :=
        (takeWhile_not_append_cons hraw hc afterEq).2
      have hpair : splitPair s = some ((rawKey, (value afterEq).1), (value afterEq).2) := by
        rw [splitPair, hcut, hdrop, htake]
      have hlt := length_splitPair hpair
      have hrawHead : ∀ d ∈ rawKey.head?, isWhitespace d = false := by
        intro d hd
        apply hhead d
        rw [hcut, Option.mem_def, List.head?_append, Option.mem_def.mp hd, Option.some_or]
      have hpendings : pendings (.between []) s =
          (ws ++ rawKey) :: pendings (.between []) (value afterEq).2 := by
        have hprefix : ∀ d ∈ ws ++ rawKey, (d == '=') = false :=
          List.forall_mem_append.mpr ⟨hwsSign, hraw⟩
        rw [hsplit, hcut, ← List.append_assoc, pendings_between hprefix, beq_iff_eq.mp hc, pendings,
          Place.keyText, Place.step, if_pos rfl, if_pos rfl, pendings_valueStart]
        rfl
      rw [hpendings, hpair, List.map_cons, trimStart_append hws, trimStart_eq_self hrawHead,
        ih _ (hn ▸ hlt) _ rfl]
      rfl

lemma keysSliceable_iff {raw : String} :
    KeysSliceable raw ↔ NarrowSeparators (trim raw.toList) := by
  rw [narrowSeparators_iff, KeysSliceable]
  have hkeys := pendings_start (trim raw.toList)
  constructor
  · intro h pending hpending
    have hmem : trimStart pending ∈ (rawPairs (trim raw.toList)).map Prod.fst := by
      rw [← hkeys]
      exact List.mem_map_of_mem hpending
    obtain ⟨pair, hpair, heq⟩ := List.mem_map.mp hmem
    rw [← heq]
    exact h pair hpair
  · intro h pair hpair
    have hmem : pair.1 ∈ (pendings (.between []) (trim raw.toList)).map trimStart := by
      rw [hkeys]
      exact List.mem_map_of_mem hpair
    obtain ⟨pending, hpending, heq⟩ := List.mem_map.mp hmem
    rw [← heq]
    exact h pending hpending

/-- The tokenizer goes through the line without a panic, with at most one item for each `=`,
exactly if no separator of several bytes stands before a key with other text since the last
value. -/
theorem kv_tokenizer_total_iff (isAlphanumeric : Char → Bool) (raw : String) :
    (∃ pairs, Tokenizes isAlphanumeric raw.toList pairs ∧ pairs.length ≤ raw.toList.count '=') ↔
      NarrowSeparators (trim raw.toList) := by
  rw [← keysSliceable_iff, ← @isSome_collect_iff isAlphanumeric,
    Option.isSome_iff_exists]
  apply exists_congr
  intro pairs
  rw [← tokenizes_iff, and_iff_left_iff_imp]
  intro h
  exact h.length_le.trans ((trim_sublist raw.toList).count_le '=')

/-- A key after an ideographic space. -/
theorem wide_separator_panics :
    ¬∃ pairs, Tokenizes Char.isAlphanum "utm forward\u3000level=1".toList pairs ∧
      pairs.length ≤ "utm forward\u3000level=1".toList.count '=' := by
  rintro ⟨pairs, h, -⟩
  rw [tokenizes_iff] at h
  have hnone : collect Char.isAlphanum "utm forward\u3000level=1".toList = none := by decide
  rw [hnone] at h
  cases h

end Ulpf.Core.KvTokenizer
