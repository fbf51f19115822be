import Ulpf.Ai.GroupNames
import Ulpf.Library.RegexGroups

/-!
# The endpoints of positional patterns

A positional pattern reads the tokens of a line one by one, so that the groups of the addresses
are the addresses in the columns that vary and have one form. The first two of these need not be
the first two columns that hold an address.
-/

namespace Ulpf.Ai.Onboarder
open Ulpf.Core Ulpf.Library Ulpf.Library.Regex

/-! ### Addresses -/

/-- The address of a token that is one, or one with a port. -/
def addressOf (token : Text) : Text := token.takeWhile fun c => c != ':' && c != '/'

lemma addressOf_append {m : Text} (hm : ∀ c ∈ m, (c != ':' && c != '/') = true) {rest : Text}
    (hrest : ∀ c ∈ rest.head?, c = ':' ∨ c = '/') : addressOf (m ++ rest) = m := by
  rw [addressOf, List.takeWhile_append_of_pos hm]
  cases rest with
  | nil => simp
  | cons c rest => rcases hrest c rfl with rfl | rfl <;> simp

/-- The atoms of an address. -/
def addressAtom : Atom → Bool
  | .digit => true
  | .escaped c => c == '.'
  | _ => false

section Ip

variable {tables : CharTables} (htables : PerlClasses tables)
include htables

lemma not_delimiter_of_accepts (a : Atom) (x : Char) (h : addressAtom a = true)
    (hx : a.accepts tables x = true) : (x != ':' && x != '/') = true := by
  cases a with
  | digit =>
    have hother : ∀ c : Char, c.toNat < 128 → c.isDigit = false → x ≠ c := by
      rintro c hc hdigit rfl
      have hx' : tables.digit x = true := hx
      rw [htables.asciiDigit x hc, hdigit] at hx'
      cases hx'
    simp [hother ':' (by decide) (by decide), hother '/' (by decide) (by decide)]
  | escaped c =>
    have hc : c = '.' := by simpa [addressAtom] using h
    have hx' : x = c := by simpa [Atom.accepts] using hx
    rw [hx', hc]
    decide
  | char c => cases h
  | dot => cases h
  | space => cases h
  | nonSpace => cases h
  | word => cases h
  | set negated items => cases h

lemma forall_of_lang_ip {m : Text} (h : Lang (Atom.accepts tables) ip m) :
    ∀ c ∈ m, (c != ':' && c != '/') = true :=
  forall_of_allIn (not_delimiter_of_accepts htables) (by decide) h

omit htables in
lemma octets_of_lang_ip {m : Text} (h : Lang (Atom.accepts tables) ip m) :
    ∃ a b c d, m = a ++ '.' :: (b ++ '.' :: (c ++ '.' :: d)) ∧ ∀ octet ∈ [a, b, c, d],
      (∀ x ∈ octet, Atom.accepts tables .digit x = true) ∧ 1 ≤ octet.length ∧ octet.length ≤ 3 := by
  obtain ⟨front, d, rfl, ⟨parts, rfl, hparts, hmin, hmax⟩, hd⟩ := h
  have hlength : parts.length = 3 := Nat.le_antisymm (hmax 0 rfl) hmin
  have hpart : ∀ part ∈ parts, ∃ octet, part = octet ++ ['.'] ∧
      (∀ x ∈ octet, Atom.accepts tables .digit x = true) ∧ 1 ≤ octet.length ∧
      octet.length ≤ 3 := by
    intro part hpart
    obtain ⟨octet, dot, rfl, hoctet, x, rfl, hx⟩ := hparts part hpart
    rw [Atom.accepts, beq_iff_eq] at hx
    exact ⟨octet, by rw [hx], lang_rep_one hoctet⟩
  obtain ⟨p, q, r, rfl⟩ := List.length_eq_three.mp hlength
  simp only [List.forall_mem_cons] at hpart
  obtain ⟨⟨a, rfl, ha⟩, ⟨b, rfl, hb⟩, ⟨c, rfl, hc⟩, -⟩ := hpart
  refine ⟨a, b, c, d, by simp, ?_⟩
  simp only [List.forall_mem_cons]
  exact ⟨ha, hb, hc, lang_rep_one hd, List.forall_mem_nil _⟩

lemma firstMatch_ip {m : Text} (h : Lang (Atom.accepts tables) ip m) (before : Text)
    (gs : List (String × Text)) :
    firstMatch (Atom.accepts tables) tables.word ip ⟨before, m, gs⟩ =
      some ⟨m.reverse ++ before, [], gs⟩ := by
  have hdot : Atom.accepts tables .digit '.' = false := htables.asciiDigit '.' (by decide)
  have hoctet : ∀ {xs : Text} (rest before : Text),
      ((∀ x ∈ xs, Atom.accepts tables .digit x = true) ∧ 1 ≤ xs.length ∧ xs.length ≤ 3) →
      firstMatch (Atom.accepts tables) tables.word
          (group (seq (upToMax (one .digit) 1 3) (one (.escaped '.'))))
          ⟨before, xs ++ '.' :: rest, gs⟩ =
        some ⟨'.' :: (xs.reverse ++ before), rest, gs⟩ := by
    intro xs rest before ⟨hxs, hmin, hmax⟩
    have hend : ∀ x ∈ ('.' :: rest).head?, Atom.accepts tables .digit x = false := by
      intro x hx
      cases hx
      exact hdot
    have hdigits : firstMatch (Atom.accepts tables) tables.word (upToMax (one .digit) 1 3)
        ⟨before, xs ++ '.' :: rest, gs⟩ = some ⟨xs.reverse ++ before, '.' :: rest, gs⟩ :=
      firstMatch_rep hxs hmin hmax (Or.inr hend) before gs
    have hperiod : firstMatch (Atom.accepts tables) tables.word (one (.escaped '.'))
        ⟨xs.reverse ++ before, '.' :: rest, gs⟩ = some ⟨'.' :: (xs.reverse ++ before), rest, gs⟩ :=
      @firstMatch_one _ _ _ (Atom.accepts tables) tables.word (.escaped '.') '.'
        (beq_self_eq_true '.') _ _ _
    exact firstMatch_seq hdigits hperiod
  obtain ⟨a, b, c, d, rfl, hoctets⟩ := octets_of_lang_ip h
  simp only [List.forall_mem_cons] at hoctets
  obtain ⟨ha, hb, hc, ⟨hd, hmin, hmax⟩, -⟩ := hoctets
  have hnone : ∀ x ∈ ([] : Text).head?, Atom.accepts tables .digit x = false := by
    intro x hx
    cases hx
  have hlast : ∀ before : Text, firstMatch (Atom.accepts tables) tables.word
      (upToMax (one .digit) 1 3) ⟨before, d ++ [], gs⟩ = some ⟨d.reverse ++ before, [], gs⟩ :=
    fun before => firstMatch_rep hd hmin hmax (Or.inr hnone) before gs
  simp only [List.append_nil] at hlast
  have hzero : ∀ c, firstMatch (Atom.accepts tables) tables.word
      (rep (group (seq (upToMax (one .digit) 1 3) (one (.escaped '.')))) 0 (some 0) false) c =
        some c := fun _ => rfl
  have hfront := firstMatch_exactly_succ (hoctet (b ++ '.' :: (c ++ '.' :: d)) before ha)
    (firstMatch_exactly_succ (hoctet (c ++ '.' :: d) _ hb)
      (firstMatch_exactly_succ (hoctet d _ hc) (hzero _)))
  have hall := firstMatch_seq hfront (hlast _)
  simpa [ip, exactly] using hall

end Ip

/-! ### What a part reads -/

/-- The groups of addresses among others. -/
def addressGroups (gs : List (String × Text)) : List (String × Text) :=
  gs.filter fun g => g.1 == "src_ip" || g.1 == "dst_ip"

/-- The name of an address behind `ips` others. -/
def addressLabel (ips : ℕ) : String := if ips = 0 then "src_ip" else "dst_ip"

/-- The group of an address that a column gives for its token. -/
def ColumnKind.endpoint (ips : ℕ) (kind : ColumnKind) (token : Text) : List (String × Text) :=
  if kind.ips = 0 then [] else [(addressLabel ips, addressOf token)]

/-- A token that all lines share has no whitespace in it, and addresses are followed by one of two
characters. -/
structure ColumnKind.Sound (kind : ColumnKind) : Prop where
  anchor : ∀ token, kind = .anchor token → SolidToken token
  delimiter : ∀ d, kind = .ipPort d → d = ':' ∨ d = '/'

/-- The groups of the addresses in a line, the latest first. -/
def endpointsOf : ℕ → List ColumnKind → List Text → List (String × Text)
  | ips, kind :: kinds, token :: tokens =>
    endpointsOf (ips + kind.ips) kinds tokens ++ kind.endpoint ips token
  | _, _, _ => []

lemma addressGroups_address (ips : ℕ) (m : Text) (gs : List (String × Text)) :
    addressGroups ((addressLabel ips, m) :: gs) = (addressLabel ips, m) :: addressGroups gs := by
  unfold addressLabel addressGroups
  split_ifs
  · rfl
  · rfl

lemma addressGroups_other {label : String} (hsrc : label ≠ "src_ip") (hdst : label ≠ "dst_ip")
    (m : Text) (gs : List (String × Text)) :
    addressGroups ((label, m) :: gs) = addressGroups gs := by
  simp [addressGroups, hsrc, hdst]

section Parts

variable {tables : CharTables} (htables : PerlClasses tables) {ips ports : ℕ}

lemma ipPart_eq (ips : ℕ) :
    (if ips = 0 then srcIp else dstIp) = capture (addressLabel ips) true ip := by
  unfold addressLabel
  split_ifs
  · rfl
  · rfl

lemma lang_ipPort {delimiter : Char} {m : Text}
    (h : Lang (Atom.accepts tables) (ColumnKind.part ips ports (.ipPort delimiter)) m) :
    ∃ address port, m = address ++ delimiter :: port ∧ Lang (Atom.accepts tables) ip address := by
  obtain ⟨address, rest, rfl, haddress, d, port, rfl, ⟨x, rfl, hx⟩, -⟩ := h
  rw [Atom.accepts, beq_iff_eq] at hx
  rw [ipPart_eq] at haddress
  exact ⟨address, port, by rw [hx]; rfl, haddress⟩

include htables

lemma addressOf_ip {m : Text} (h : Lang (Atom.accepts tables) ip m) : addressOf m = m := by
  have hall := @addressOf_append m (forall_of_lang_ip htables h) [] (by simp)
  rwa [List.append_nil] at hall

lemma addressOf_ipPort {address : Text} (h : Lang (Atom.accepts tables) ip address)
    {delimiter : Char} (hdelimiter : delimiter = ':' ∨ delimiter = '/') (rest : Text) :
    addressOf (address ++ delimiter :: rest) = address := by
  apply addressOf_append (forall_of_lang_ip htables h)
  intro c hc
  cases hc
  exact hdelimiter

lemma part_reads {kind : ColumnKind} (hkind : kind.Sound) {c d : Cursor Char}
    (h : d ∈ Regex.run (Atom.accepts tables) tables.word (kind.part ips ports) c) :
    ∃ m, Lang (Atom.accepts tables) (kind.part ips ports) m ∧ Reads c m d ∧
      addressGroups d.groups = kind.endpoint ips m ++ addressGroups c.groups := by
  obtain ⟨m, hm, hread⟩ := lang_of_mem_run h
  refine ⟨m, hm, hread, ?_⟩
  have hnamed : ∀ {label : String} {r : CharRegex}, kind.part ips ports = named label r →
      captureFree r = true → label ≠ "src_ip" → label ≠ "dst_ip" → kind.ips = 0 →
      addressGroups d.groups = kind.endpoint ips m ++ addressGroups c.groups := by
    intro label r hpart hfree hsrc hdst hips
    rw [hpart] at h
    obtain ⟨text, -, -, hgroups⟩ := mem_run_capture hfree h
    rw [hgroups, addressGroups_other hsrc hdst, ColumnKind.endpoint, if_pos hips, List.nil_append]
  cases kind with
  | anchor token => exact congrArg addressGroups (groups_of_captureFree rfl h)
  | other => exact congrArg addressGroups (groups_of_captureFree rfl h)
  | protocol => exact hnamed rfl rfl (by decide) (by decide) rfl
  | action => exact hnamed rfl rfl (by decide) (by decide) rfl
  | timestamp => exact hnamed rfl rfl (by decide) (by decide) rfl
  | port =>
    by_cases hports : ports = 0
    · exact hnamed (if_pos hports) rfl (by decide) (by decide) rfl
    · exact hnamed (if_neg hports) rfl (by decide) (by decide) rfl
  | ip =>
    have hpart : ColumnKind.part ips ports .ip = capture (addressLabel ips) true ip := ipPart_eq ips
    rw [hpart] at h hm
    obtain ⟨text, -, hread', hgroups⟩ := mem_run_capture rfl h
    have htext : text = m := by rw [← between_eq hread', between_eq hread]
    rw [hgroups, htext, addressGroups_address, ColumnKind.endpoint, if_neg (by decide),
      addressOf_ip htables hm]
    rfl
  | ipPort delimiter =>
    have hpart : ColumnKind.part ips ports (.ipPort delimiter) =
        seq (capture (addressLabel ips) true ip) (seq (one (.char delimiter))
          (if ips = 0 then srcPort else dstPort)) := by
      rw [← ipPart_eq]
      rfl
    rw [hpart] at h
    obtain ⟨e, he, hrest⟩ := List.mem_flatMap.mp h
    obtain ⟨f, hf, hd⟩ := List.mem_flatMap.mp hrest
    obtain ⟨address, haddress, hread₁, hgroups₁⟩ := mem_run_capture rfl he
    obtain ⟨x, hx, hread₂, hgroups₂⟩ := mem_readOne hf
    obtain ⟨port, hread₃, hgroups₃⟩ : ∃ port, Reads f port d ∧
        addressGroups d.groups = addressGroups f.groups := by
      split_ifs at hd
      · obtain ⟨port, -, hread₃, hgroups₃⟩ := mem_run_capture rfl hd
        exact ⟨port, hread₃, by rw [hgroups₃, addressGroups_other (by decide) (by decide)]⟩
      · obtain ⟨port, -, hread₃, hgroups₃⟩ := mem_run_capture rfl hd
        exact ⟨port, hread₃, by rw [hgroups₃, addressGroups_other (by decide) (by decide)]⟩
    have hsplit : m = address ++ x :: port := by
      rw [← between_eq hread, between_eq (hread₁.trans (hread₂.trans hread₃))]
      rfl
    have hdelimiter : x = ':' ∨ x = '/' := by
      have hx' : x = delimiter := by simpa [Atom.accepts] using hx
      rw [hx']
      exact hkind.delimiter delimiter rfl
    have hone : (ColumnKind.ipPort delimiter).ips ≠ 0 := Nat.one_ne_zero
    rw [hgroups₃, hgroups₂, hgroups₁, addressGroups_address, ColumnKind.endpoint, if_neg hone,
      hsplit, addressOf_ipPort htables haddress hdelimiter]
    rfl

lemma solid_of_part {kind : ColumnKind} (hkind : kind.Sound) {m : Text}
    (h : Lang (Atom.accepts tables) (kind.part ips ports) m) :
    m ≠ [] ∧ ∀ x ∈ m, isWhitespace x = false := by
  have hall : allIn solidAtom (fun x => !isWhitespace x) (kind.part ips ports) = true := by
    cases kind with
    | anchor token =>
      have hsolid := (hkind.anchor token rfl).2
      simpa [ColumnKind.part, allIn] using hsolid
    | ipPort delimiter =>
      dsimp only [ColumnKind.part]
      rcases hkind.delimiter delimiter rfl with rfl | rfl
      · split_ifs <;> decide
      · split_ifs <;> decide
    | ip =>
      dsimp only [ColumnKind.part]
      split_ifs
      · decide
      · decide
    | port =>
      dsimp only [ColumnKind.part]
      split_ifs
      · decide
      · decide
    | protocol => rfl
    | action => rfl
    | timestamp => rfl
    | other => rfl
  refine ⟨?_, ?_⟩
  · rintro rfl
    have hends := solidEnds_part hkind.anchor ips ports
    simp only [solidEnds, Bool.and_eq_true, Bool.not_eq_true'] at hends
    rw [nullable_of_lang h] at hends
    cases hends.1.1.1.1
  · intro x hx
    simpa using forall_of_allIn (solid_of_accepts htables) hall h x hx

/-- The last part may stop within the token, but reads all of an address. -/
lemma addressGroups_last {kind : ColumnKind} (hkind : kind.Sound) {c d : Cursor Char}
    (hsolid : ∀ x ∈ c.after, isWhitespace x = false)
    (hip : kind = .ip → Lang (Atom.accepts tables) ip c.after)
    (h : (complete (Atom.accepts tables) tables.word (kind.part ips ports) .dot c).head? = some d) :
    addressGroups d.groups = kind.endpoint ips c.after ++ addressGroups c.groups := by
  have hrest : ∀ e ∈ Regex.run (Atom.accepts tables) tables.word (kind.part ips ports) c,
      e.after.all (Atom.accepts tables .dot) = true := by
    intro e he
    obtain ⟨m, -, hread⟩ := lang_of_mem_run he
    rw [all_dot_iff]
    intro hmem
    have hblank := hsolid '\n' (by rw [hread.after]; exact List.mem_append_right m hmem)
    exact absurd hblank (by decide)
  by_cases hbare : kind = .ip
  · subst hbare
    have hpart : ColumnKind.part ips ports .ip = capture (addressLabel ips) true ip := ipPart_eq ips
    have hone : ColumnKind.ip.ips ≠ 0 := Nat.one_ne_zero
    have haddress := hip rfl
    have hfirst :
        (Regex.run (Atom.accepts tables) tables.word (ColumnKind.part ips ports .ip) c).head? =
          some ⟨c.after.reverse ++ c.before, [], (addressLabel ips, c.after) :: c.groups⟩ := by
      rw [hpart]
      refine (firstMatch_capture (firstMatch_ip htables haddress c.before c.groups)).trans ?_
      rw [between_eq ⟨(List.append_nil _).symm, rfl⟩]
    rw [complete, head?_flatMap hfirst rfl, Option.some.injEq] at h
    rw [← h, addressGroups_address, ColumnKind.endpoint, if_neg hone, addressOf_ip htables haddress]
    rfl
  · obtain ⟨e, he, hd⟩ := exists_of_head?_flatMap h
    rw [if_pos (hrest e he), List.head?_cons, Option.some.injEq] at hd
    obtain ⟨m, hm, hread, hgroups⟩ := part_reads htables hkind he
    have hsame : kind.endpoint ips c.after = kind.endpoint ips m := by
      cases kind with
      | ip => exact absurd rfl hbare
      | ipPort delimiter =>
        obtain ⟨address, port, rfl, haddress⟩ := lang_ipPort hm
        have hall := addressOf_ipPort htables haddress (hkind.delimiter delimiter rfl)
        rw [ColumnKind.endpoint, ColumnKind.endpoint, hread.after, List.append_assoc,
          List.cons_append, hall, hall]
      | anchor token => rfl
      | port => rfl
      | protocol => rfl
      | action => rfl
      | timestamp => rfl
      | other => rfl
    rw [← hd, hsame]
    exact hgroups

omit htables in
lemma blank_of_spaces (hspace : ∀ x, tables.space x = isWhitespace x) {g : Text}
    (h : Lang (Atom.accepts tables) spaces g) : ∃ x rest, g = x :: rest ∧
      ∀ y ∈ x :: rest, isWhitespace y = true := by
  obtain ⟨parts, rfl, hparts, hmin, -⟩ := h
  have hall : ∀ y ∈ parts.flatten, isWhitespace y = true := by
    intro y hy
    obtain ⟨part, hpart, hmem⟩ := List.mem_flatten.mp hy
    obtain ⟨x, rfl, hx⟩ := hparts part hpart
    rw [List.mem_singleton.mp hmem, ← hspace]
    exact hx
  cases parts with
  | nil => cases hmin
  | cons part parts =>
    obtain ⟨x, rfl, -⟩ := hparts _ List.mem_cons_self
    exact ⟨x, parts.flatten, rfl, hall⟩

lemma head_of_positionalCore {kinds : List ColumnKind} (hkinds : ∀ kind ∈ kinds, kind.Sound)
    (hne : kinds ≠ []) {c d : Cursor Char}
    (h : (complete (Atom.accepts tables) tables.word (positionalCore (partsOf ips ports kinds)) .dot
      c).head? = some d) : ∃ x rest, c.after = x :: rest ∧ isWhitespace x = false := by
  have hparts : partsOf ips ports kinds ≠ [] := by
    cases kinds with
    | nil => exact absurd rfl hne
    | cons kind kinds => simp [partsOf]
  have hends := solidEnds_positionalCore hparts
    (solidEnds_partsOf (fun kind hkind => (hkinds kind hkind).anchor) ips ports)
  obtain ⟨e, he, -⟩ := exists_of_head?_flatMap h
  obtain ⟨m, hm, hread⟩ := lang_of_mem_run he
  obtain ⟨x, rest, rfl, hx⟩ := (core_of_solidEnds htables hends).first m hm
  exact ⟨x, rest ++ e.after, by rw [hread.after]; rfl, hx⟩

/-- The groups of a positional pattern are the addresses in the tokens of the line. -/
lemma addressGroups_positional {kinds : List ColumnKind} {tokens : List Text}
    (hkinds : ∀ kind ∈ kinds, kind.Sound) (hne : kinds ≠ [])
    (htokens : List.Forall₂ (fun kind token => kind = .ip → Lang (Atom.accepts tables) ip token)
      kinds tokens) {ips ports : ℕ} {c d : Cursor Char} (hwords : splitWhitespace c.after = tokens)
    (hbare : Bare isWhitespace c.after)
    (h : (complete (Atom.accepts tables) tables.word (positionalCore (partsOf ips ports kinds)) .dot
      c).head? = some d) :
    addressGroups d.groups = endpointsOf ips kinds tokens ++ addressGroups c.groups := by
  induction htokens generalizing ips ports c with
  | nil => exact absurd rfl hne
  | @cons kind token kinds tokens hip hrest ih =>
    rw [List.forall_mem_cons] at hkinds
    cases kinds with
    | nil =>
      cases hrest
      have hline := eq_of_splitWhitespace_singleton hbare hwords
      have hword := solid_of_mem_splitWhitespace (hwords ▸ List.mem_singleton_self token)
      rw [← hline] at hip hword ⊢
      exact addressGroups_last htables hkinds.1 hword.2 hip h
    | cons kind' kinds =>
      obtain ⟨e₁, hpart, hlater⟩ :
          ∃ e₁ ∈ Regex.run (Atom.accepts tables) tables.word (kind.part ips ports) c,
          ((Regex.run (Atom.accepts tables) tables.word (seq spaces (positionalCore
            (partsOf (ips + kind.ips) (ports + kind.ports) (kind' :: kinds)))) e₁).flatMap
              fun d => if d.after.all (Atom.accepts tables .dot) then
                [(⟨d.after.reverse ++ d.before, [], d.groups⟩ : Cursor Char)] else []).head? =
            some d := by
        apply exists_of_head?_flatMap
        exact (congrArg List.head? List.flatMap_assoc.symm).trans h
      obtain ⟨e₂, hspaces, hcore⟩ : ∃ e₂ ∈ Regex.run (Atom.accepts tables) tables.word spaces e₁,
          (complete (Atom.accepts tables) tables.word (positionalCore
            (partsOf (ips + kind.ips) (ports + kind.ports) (kind' :: kinds))) .dot e₂).head? =
            some d := by
        apply exists_of_head?_flatMap
        exact (congrArg List.head? List.flatMap_assoc.symm).trans hlater
      obtain ⟨m, hm, hread₁, hgroups₁⟩ := part_reads htables hkinds.1 hpart
      obtain ⟨hne', hsolid⟩ := solid_of_part htables hkinds.1 hm
      obtain ⟨g, hg, hread₂⟩ := lang_of_mem_run hspaces
      obtain ⟨x, g, rfl, hblank⟩ := blank_of_spaces htables.space hg
      obtain ⟨y, rest, hafter, hy⟩ := head_of_positionalCore htables hkinds.2 (List.cons_ne_nil _ _)
        hcore
      have hline : c.after = m ++ (x :: g ++ e₂.after) := by rw [hread₁.after, hread₂.after]
      have hlater : splitWhitespace c.after = m :: splitWhitespace e₂.after := by
        rw [hline, splitWhitespace_word_append hsolid hne',
          splitWhitespace_blank_append hblank]
        intro z hz
        cases hz
        exact hblank x List.mem_cons_self
      rw [hwords, List.cons.injEq] at hlater
      obtain ⟨rfl, htokens⟩ := hlater
      have hbare₂ : Bare isWhitespace e₂.after := by
        refine ⟨?_, ?_⟩
        · intro z hz
          rw [hafter] at hz
          cases hz
          exact hy
        · intro z hz
          apply hbare.last z
          rw [hline, ← List.append_assoc]
          rw [List.getLast?_append, Option.mem_def.mp hz]
          rfl
      rw [ih hkinds.2 (List.cons_ne_nil _ _) htokens.symm hbare₂ hcore,
        groups_of_captureFree rfl hspaces, hgroups₁, endpointsOf, List.append_assoc]

end Parts

/-! ### The columns of a line -/

/-- The token is an address, or one with a port. -/
def isAddress (regex : RegexCrate) (token : String) : Bool :=
  regex.isMatch reIp token || regex.isMatch reIpPort token

/-- The addresses in a line. -/
def shapedAddresses (regex : RegexCrate) (line : String) : List Text :=
  ((tokensOf line).filter (isAddress regex)).map fun token => addressOf token.toList

/-- The addresses of the columns that add to the count of addresses. -/
def uniformOf (kinds : List ColumnKind) (tokens : List Text) : List Text :=
  ((kinds.zip tokens).filter fun p => p.1.ips != 0).map fun p => addressOf p.2

/-- The addresses in the columns of a line that vary and have addresses of one form only. -/
def uniformAddresses (regex : RegexCrate) (samples : List String) (line : String) : List Text :=
  uniformOf (kindsOf regex samples) (splitWhitespace line.toList)

lemma uniformOf_cons (kind : ColumnKind) (kinds : List ColumnKind) (token : Text)
    (tokens : List Text) : uniformOf (kind :: kinds) (token :: tokens) =
      (if kind.ips = 0 then [] else [addressOf token]) ++ uniformOf kinds tokens := by
  unfold uniformOf
  rw [List.zip_cons_cons, List.filter_cons]
  by_cases hzero : kind.ips = 0
  · simp [hzero]
  · simp [hzero]

lemma length_uniformOf_le (kinds : List ColumnKind) (tokens : List Text) :
    (uniformOf kinds tokens).length ≤ addresses kinds := by
  induction kinds generalizing tokens with
  | nil => simp [uniformOf, addresses]
  | cons kind kinds ih =>
    cases tokens with
    | nil => simp [uniformOf]
    | cons token tokens =>
      have hle := ih tokens
      rw [uniformOf_cons, List.length_append, addresses, List.map_cons, List.sum_cons, ← addresses]
      split_ifs <;> simp <;> omega

lemma endpointsOf_succ {ips : ℕ} (hips : ips ≠ 0) (kinds : List ColumnKind) (tokens : List Text) :
    endpointsOf ips kinds tokens =
      ((uniformOf kinds tokens).map fun a => ("dst_ip", a)).reverse := by
  induction kinds generalizing ips tokens with
  | nil =>
    rw [endpointsOf]
    · rfl
    · simp
  | cons kind kinds ih =>
    cases tokens with
    | nil =>
      rw [endpointsOf]
      · simp [uniformOf]
      · simp
    | cons token tokens =>
      rw [endpointsOf, uniformOf_cons, ih (by omega), ColumnKind.endpoint, addressLabel,
        if_neg hips]
      split_ifs <;> simp

lemma endpointsOf_zero (kinds : List ColumnKind) (tokens : List Text) :
    endpointsOf 0 kinds tokens = match uniformOf kinds tokens with
      | [] => []
      | a :: rest => (rest.map fun a => ("dst_ip", a)).reverse ++ [("src_ip", a)] := by
  induction kinds generalizing tokens with
  | nil =>
    rw [endpointsOf]
    · rfl
    · simp
  | cons kind kinds ih =>
    cases tokens with
    | nil =>
      rw [endpointsOf]
      · simp [uniformOf]
      · simp
    | cons token tokens =>
      rw [endpointsOf, uniformOf_cons, ColumnKind.endpoint]
      by_cases hzero : kind.ips = 0
      · rw [if_pos hzero, if_pos hzero, hzero, ih tokens]
        simp
      · rw [if_neg hzero, if_neg hzero, endpointsOf_succ (by omega)]
        rfl

lemma lookup_addressGroups {label : String} (hlabel : label = "src_ip" ∨ label = "dst_ip")
    (gs : List (String × Text)) : (addressGroups gs).lookup label = gs.lookup label := by
  induction gs with
  | nil => rfl
  | cons g gs ih =>
    obtain ⟨name, m⟩ := g
    by_cases hname : name = "src_ip" ∨ name = "dst_ip"
    · have hkeep : addressGroups ((name, m) :: gs) = (name, m) :: addressGroups gs := by
        rcases hname with rfl | rfl
        · rfl
        · rfl
      rw [hkeep, List.lookup_cons, List.lookup_cons, ih]
    · rw [not_or] at hname
      have hother : (label == name) = false := by
        rw [beq_eq_false_iff_ne]
        rintro rfl
        exact hlabel.elim hname.1 hname.2
      rw [addressGroups_other hname.1 hname.2, ih, List.lookup_cons, hother]

section Samples

variable {regex : RegexCrate} {tables : CharTables} {samples : List String}

lemma sound_of_mem_kindsOf : ∀ kind ∈ kindsOf regex samples, kind.Sound := by
  intro kind hkind
  obtain ⟨col, hcol, rfl⟩ := List.mem_map.mp hkind
  refine ⟨fun token hanchor => ?_, fun d hd => delimiter_of_kindOf hd⟩
  rw [kindOf_anchor hanchor]
  exact solidToken_head hcol

lemma kindOf_ip {col : List String} (h : kindOf regex col = .ip) :
    ∀ token ∈ col, regex.isMatch reIp token = true := by
  unfold kindOf at h
  dsimp only at h
  split_ifs at h with _ _ hall
  exact List.all_eq_true.mp hall

lemma lang_of_isMatch (hip : ∀ re, regex.new reIp = some re → re = compile tables wholeIp)
    {token : String} (h : regex.isMatch reIp token = true) :
    Lang (Atom.accepts tables) ip token.toList := by
  obtain ⟨re, hre, hmatch⟩ : ∃ re, regex.new reIp = some re ∧ re.isMatch token = true := by
    unfold RegexCrate.isMatch at h
    cases hre : regex.new reIp with
    | none =>
      rw [hre] at h
      cases h
    | some re =>
      rw [hre] at h
      exact ⟨re, rfl, h⟩
  obtain rfl := hip re hre
  obtain ⟨caps, hcaps⟩ := Option.isSome_iff_exists.mp hmatch
  obtain ⟨found, hfound, -⟩ := Option.map_eq_some_iff.mp hcaps
  rw [wholeIp, search_start] at hfound
  obtain ⟨d, hd, -⟩ := Option.map_eq_some_iff.mp hfound
  obtain ⟨e, he, hstop⟩ := List.mem_flatMap.mp (List.mem_of_mem_head? hd)
  rw [Regex.run, List.mem_ite_nil_right] at hstop
  obtain ⟨m, hm, hread⟩ := lang_of_mem_run he
  have hall : token.toList = m := by
    have hafter := hread.after
    rwa [hstop.1, List.append_nil] at hafter
  rwa [hall]

lemma forall₂_kindsOf (hip : ∀ re, regex.new reIp = some re → re = compile tables wholeIp)
    {sample : String} (hsample : sample ∈ samples)
    (hcount : (tokensOf sample).length = columnCount samples) :
    List.Forall₂ (fun kind token => kind = .ip → Lang (Atom.accepts tables) ip token)
      (kindsOf regex samples) (splitWhitespace sample.toList) := by
  rw [tokensOf, List.length_map] at hcount
  rw [List.forall₂_iff_get]
  refine ⟨by simp [kindsOf, columnsOf, hcount], ?_⟩
  intro i hi hi' hkind
  simp only [kindsOf, columnsOf, List.get_eq_getElem, List.getElem_map, List.getElem_range] at hkind
  have hmem : String.ofList (splitWhitespace sample.toList)[i] ∈
      (samples.map tokensOf).map fun l => l[i]?.getD "" := by
    rw [List.map_map, List.mem_map]
    refine ⟨sample, hsample, ?_⟩
    rw [Function.comp_apply, tokensOf, List.getElem?_map, List.getElem?_eq_getElem hi']
    rfl
  have haddress := lang_of_isMatch hip (kindOf_ip hkind _ hmem)
  rwa [String.toList_ofList] at haddress

lemma positional_captures (htables : PerlClasses tables)
    (hip : ∀ re, regex.new reIp = some re → re = compile tables wholeIp)
    {sample : String} (hsample : sample ∈ samples) (hcolumns : columnCount samples ≠ 0)
    (hcount : (tokensOf sample).length = columnCount samples) {caps : Match}
    (hcaps : (compile tables (positionalPattern regex samples).regex).captures
      (String.ofList (trim sample.toList)) = some caps) {label : String}
    (hlabel : label = "src_ip" ∨ label = "dst_ip") :
    caps.name label = ((endpointsOf 0 (kindsOf regex samples)
      (splitWhitespace sample.toList)).lookup label).map String.ofList := by
  have hnames := map_name_captures tables (positionalPattern regex samples).regex
    (String.ofList (trim sample.toList))
  rw [hcaps, Option.map_some, String.toList_ofList, eq_comm, Option.map_eq_some_iff] at hnames
  obtain ⟨groups, hgroups, hname⟩ := hnames
  have hplace : (positionalPattern regex samples).regex =
      anchored (positionalCore (partsOf 0 0 (kindsOf regex samples))) true .dot := rfl
  rw [hplace, anchored, groupsOf_start, run_rest] at hgroups
  obtain ⟨d, hd, rfl⟩ := Option.map_eq_some_iff.mp hgroups
  have hne : kindsOf regex samples ≠ [] := by simp [kindsOf, columnsOf, hcolumns]
  have hall := addressGroups_positional htables sound_of_mem_kindsOf hne
    (forall₂_kindsOf hip hsample hcount) (splitWhitespace_trim sample.toList) (bare_strip _) hd
  have hlookup := lookup_addressGroups hlabel d.groups
  rw [hall] at hlookup
  rw [← hname]
  dsimp only
  rw [← hlookup]
  simp [addressGroups]

/-- The pattern is written from the columns. -/
def positionalRoute (regex : RegexCrate) (first : String) : Bool :=
  let has := contains first.toList
  if has "->" || has "session created" || has "session denied" then
    !regex.isMatch reFlowSlash first && !regex.isMatch reFlowColon first
  else !(has "src=" || has "srcip=" || has "saddr=")

lemma synthesizePattern_positional {first : String} (h : positionalRoute regex first = true)
    (samples : List String) :
    synthesizePattern regex first samples = synthesizePositional regex samples := by
  unfold positionalRoute at h
  unfold synthesizePattern synthesizeFlow
  dsimp only at h ⊢
  split_ifs at h ⊢ <;> simp_all

lemma captures_uniform (htables : PerlClasses tables)
    (hip : ∀ re, regex.new reIp = some re → re = compile tables wholeIp)
    {sample : String} (hsample : sample ∈ samples) (hcolumns : columnCount samples ≠ 0)
    (hcount : (tokensOf sample).length = columnCount samples)
    (htwo : addresses (kindsOf regex samples) ≤ 2) {caps : Match}
    (hcaps : (compile tables (positionalPattern regex samples).regex).captures
      (String.ofList (trim sample.toList)) = some caps) (hvalid : GroupsValid caps) :
    ∃ src dst, uniformAddresses regex samples sample = [src, dst] ∧
      caps.name "src_ip" = some (String.ofList src) ∧
        caps.name "dst_ip" = some (String.ofList dst) := by
  have hsrc := positional_captures htables hip hsample hcolumns hcount hcaps (Or.inl rfl)
  have hdst := positional_captures htables hip hsample hcolumns hcount hcaps (Or.inr rfl)
  have hlength := length_uniformOf_le (kindsOf regex samples) (splitWhitespace sample.toList)
  obtain ⟨srcIp, hsrcIp, -⟩ := hvalid.srcIp
  obtain ⟨dstIp, hdstIp, -⟩ := hvalid.dstIp
  rw [endpointsOf_zero] at hsrc hdst
  rw [uniformAddresses]
  cases hall : uniformOf (kindsOf regex samples) (splitWhitespace sample.toList) with
  | nil =>
    rw [hall, hsrcIp] at hsrc
    cases hsrc
  | cons src rest =>
    rw [hall] at hsrc hdst hlength
    cases rest with
    | nil =>
      rw [hdstIp] at hdst
      cases hdst
    | cons dst rest =>
      have hnone : rest = [] := by
        rw [List.length_cons, List.length_cons] at hlength
        exact List.length_eq_zero_iff.mp (by omega)
      subst hnone
      exact ⟨src, dst, rfl, hsrc, hdst⟩

/-- The addresses that the pattern captures in the trimmed sample are those in the first two of its
columns with addresses. -/
def EndpointsByPosition (regex : RegexCrate) (parser : ParserDefinition) (sample : String) : Prop :=
  ∃ re caps src dst rest, regex.new parser.regexPattern = some re ∧
    re.captures (String.ofList (trim sample.toList)) = some caps ∧
      shapedAddresses regex sample = src :: dst :: rest ∧
        caps.name "src_ip" = some (String.ofList src) ∧
          caps.name "dst_ip" = some (String.ofList dst)

end Samples

/-! ### A crate with the expression of some columns -/

def patternOf (kinds : List ColumnKind) : Pattern :=
  ⟨positionalCore (partsOf 0 0 kinds), true, false⟩

def columnCrate (kinds : List ColumnKind) : RegexCrate where
  new pattern :=
    if pattern = (patternOf kinds).regex.text escapeMeta then
      some (compile asciiClasses (patternOf kinds).regex)
    else addressCrate.new pattern
  escape := escapeMeta

lemma columnCrate_new {kinds : List ColumnKind} {samples : List String}
    (hkinds : kindsOf (columnCrate kinds) samples = kinds)
    (hnodup : (namedGroups ((patternOf kinds).regex.text escapeMeta).toList).Nodup) {p : Pattern}
    (hp : synthesizePositional (columnCrate kinds) samples = .ok p) {re : CompiledRegex}
    (hre : (columnCrate kinds).new (p.regex.text (columnCrate kinds).escape) = some re) :
    re = compile asciiClasses p.regex ∧
      (namedGroups (p.regex.text (columnCrate kinds).escape).toList).Nodup := by
  have hpattern : p = patternOf kinds := by
    unfold synthesizePositional at hp
    split_ifs at hp
    rw [← Except.ok.inj hp, ← congrArg patternOf hkinds]
    rfl
  subst hpattern
  have hnew : (columnCrate kinds).new ((patternOf kinds).regex.text escapeMeta) =
      some (compile asciiClasses (patternOf kinds).regex) := if_pos rfl
  exact ⟨(Option.some.inj (hnew.symm.trans hre)).symm, hnodup⟩

lemma columnCrate_reIp {kinds : List ColumnKind}
    (hother : reIp ≠ (patternOf kinds).regex.text escapeMeta) {re : CompiledRegex}
    (hre : (columnCrate kinds).new reIp = some re) : re = compile asciiClasses wholeIp := by
  have hport : reIp ≠ reIpPort := by decide +kernel
  rw [columnCrate, addressCrate] at hre
  dsimp only at hre
  rw [if_neg hother, if_neg hport, if_pos rfl] at hre
  exact (Option.some.inj hre).symm

/-- Lines of a firewall that differ in two addresses. -/
def firewallLines (name : String) : List String :=
  [name ++ " 10.0.0.1 10.0.1.1:53", name ++ " 10.0.0.2 10.0.1.2:53",
    name ++ " 10.0.0.3 10.0.1.3:80"]

def firewallCrate (name : String) : RegexCrate := columnCrate [.anchor name, .ip, .ipPort ':']

/-- The endpoints are those of the first two columns with addresses exactly if the columns that vary
and have addresses of one form hold the same. -/
theorem endpoints_by_position_iff {regex : RegexCrate} {tables : CharTables}
    (htables : PerlClasses tables) (hescape : regex.escape = escapeMeta)
    {debug : List String → String} {nowMs : Int64} {vendor deviceModel : String}
    {samples : List String} {parser : ParserDefinition} {report : ValidationReport}
    (hcompile : ∀ p, synthesizePattern regex (samples.head?.getD "") samples = .ok p →
      ∀ re, regex.new (p.regex.text regex.escape) = some re → re = compile tables p.regex ∧
        (namedGroups (p.regex.text regex.escape).toList).Nodup)
    (hip : ∀ re, regex.new reIp = some re → re = compile tables wholeIp)
    (hroute : positionalRoute regex (samples.head?.getD "") = true)
    (hcount : ∀ sample ∈ samples, (tokensOf sample).length = columnCount samples)
    (h : generateParser regex debug nowMs vendor deviceModel samples = .ok (parser, report)) :
    (∀ sample ∈ samples, EndpointsByPosition regex parser sample) ↔
      ∀ sample ∈ samples,
        uniformAddresses regex samples sample = (shapedAddresses regex sample).take 2 := by
  obtain ⟨-, hpassed, hreport, -⟩ := generateParser_eq_ok h
  obtain ⟨p, hp, hpattern⟩ := generateParser_pattern h
  obtain ⟨re, hre, hpass⟩ := (validateParser_passed_iff hreport).mp hpassed
  obtain ⟨rfl, hnodup⟩ := hcompile p hp re (hpattern ▸ hre)
  rw [synthesizePattern_positional hroute] at hp
  have htext : synthesizePositionalRegex regex samples = .ok (p.regex.text regex.escape) := by
    rw [synthesizePositionalRegex_eq, hp]
    rfl
  unfold synthesizePositional at hp
  split_ifs at hp with hcolumns
  obtain rfl := Except.ok.inj hp
  rw [namedGroups_positional hescape htext, List.nodup_map_iff fun _ _ => String.toList_inj.mp,
    nodup_groupNames_iff] at hnodup
  apply forall₂_congr
  intro sample hsample
  obtain ⟨-, caps, hcaps, hvalid⟩ := hpass sample hsample
  obtain ⟨src, dst, huniform, hsrc, hdst⟩ := captures_uniform htables hip hsample hcolumns
    (hcount sample hsample) hnodup.addresses hcaps hvalid
  rw [huniform]
  constructor
  · rintro ⟨re, caps', src', dst', rest, hre', hcaps', hshaped, hsrc', hdst'⟩
    obtain rfl := Option.some.inj (hre.symm.trans hre')
    obtain rfl := Option.some.inj (hcaps.symm.trans hcaps')
    rw [hsrc, Option.some.injEq, String.ofList_inj] at hsrc'
    rw [hdst, Option.some.injEq, String.ofList_inj] at hdst'
    rw [hshaped, hsrc', hdst']
    rfl
  · intro hsame
    obtain ⟨rest, hshaped⟩ : ∃ rest, shapedAddresses regex sample = src :: dst :: rest :=
      ⟨_, by rw [← List.take_append_drop 2 (shapedAddresses regex sample), ← hsame]; rfl⟩
    exact ⟨_, caps, src, dst, rest, hre, hcaps, hshaped, hsrc, hdst⟩

theorem endpoints_by_position_iff_named : ∃ parser report,
    generateParser (firewallCrate "fw") (fun _ => "") 0 "v" "m" (firewallLines "fw") =
        .ok (parser, report) ∧
      ∀ sample ∈ firewallLines "fw",
        EndpointsByPosition (firewallCrate "fw") parser sample := by
  have hok : (generateParser (firewallCrate "fw") (fun _ => "") 0 "v" "m"
      (firewallLines "fw")).toOption.any (fun _ => true) = true := by decide +kernel
  have hkinds : kindsOf (firewallCrate "fw") (firewallLines "fw") =
      [.anchor "fw", .ip, .ipPort ':'] := by decide +kernel
  have hroute : positionalRoute (firewallCrate "fw")
      ((firewallLines "fw").head?.getD "") = true := by decide +kernel
  obtain ⟨⟨parser, report⟩, h, -⟩ := exists_of_toOption hok
  refine ⟨parser, report, h,
    (endpoints_by_position_iff perlClasses_ascii rfl ?_ ?_ hroute ?_ h).mpr ?_⟩
  · intro p hp re hre
    rw [synthesizePattern_positional hroute] at hp
    exact columnCrate_new hkinds (by decide +kernel) hp hre
  · intro re hre
    exact columnCrate_reIp (by decide +kernel) hre
  · decide +kernel
  · decide +kernel

/-- The address of the firewall itself is the first in its lines. -/
theorem constant_address_skipped : ∃ parser report,
    generateParser (firewallCrate "9.9.9.9") (fun _ => "") 0 "v" "m" (firewallLines "9.9.9.9") =
        .ok (parser, report) ∧
      positionalRoute (firewallCrate "9.9.9.9") "9.9.9.9 10.0.0.1 10.0.1.1:53" = true ∧
      (∀ sample ∈ firewallLines "9.9.9.9",
        (tokensOf sample).map (isAddress (firewallCrate "9.9.9.9")) = [true, true, true]) ∧
      ¬∀ sample ∈ firewallLines "9.9.9.9",
        EndpointsByPosition (firewallCrate "9.9.9.9") parser sample := by
  have hok : (generateParser (firewallCrate "9.9.9.9") (fun _ => "") 0 "v" "m"
      (firewallLines "9.9.9.9")).toOption.any (fun result =>
        ((firewallCrate "9.9.9.9").new result.1.regexPattern).all fun re =>
          (re.captures "9.9.9.9 10.0.0.1 10.0.1.1:53").all fun caps =>
            decide (caps.name "src_ip" = some "10.0.0.1")) = true := by decide +kernel
  have hline : String.ofList (trim "9.9.9.9 10.0.0.1 10.0.1.1:53".toList) =
      "9.9.9.9 10.0.0.1 10.0.1.1:53" := by decide +kernel
  have hshaped : shapedAddresses (firewallCrate "9.9.9.9") "9.9.9.9 10.0.0.1 10.0.1.1:53" =
      ["9.9.9.9", "10.0.0.1", "10.0.1.1"].map String.toList := by decide +kernel
  obtain ⟨⟨parser, report⟩, h, hcaptured⟩ := exists_of_toOption hok
  have hmem : "9.9.9.9 10.0.0.1 10.0.1.1:53" ∈ firewallLines "9.9.9.9" := by decide +kernel
  refine ⟨parser, report, h, by decide +kernel, by decide +kernel, fun hall => ?_⟩
  obtain ⟨re, caps, src, dst, rest, hre, hcaps, haddresses, hsrc, -⟩ := hall _ hmem
  rw [hline] at hcaps
  dsimp only at hcaptured
  rw [hre, Option.all_some, hcaps, Option.all_some, decide_eq_true_eq, hsrc, Option.some.injEq,
    ← String.toList_inj, String.toList_ofList] at hcaptured
  rw [hshaped, hcaptured] at haddresses
  exact absurd (List.cons.inj haddresses).1 (by decide +kernel)

end Ulpf.Ai.Onboarder
