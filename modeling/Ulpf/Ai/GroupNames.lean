import Ulpf.Ai.Padding

/-!
# The groups of a positional pattern

The loop over the columns names groups after two counters, of addresses and of ports. A column
with an address and a port takes both names from the count of addresses, and no counter stops
at two, so that the names of a pattern may repeat.
-/

namespace Ulpf.Ai.Onboarder
open Ulpf.Core Ulpf.Library Ulpf.Library.Regex

/-! ### The names in a pattern -/

/-- The names of the groups that a pattern opens: an escaped character opens none. -/
def namedGroups : Text → List Text
  | [] => []
  | '\\' :: _ :: rest => namedGroups rest
  | '(' :: '?' :: 'P' :: '<' :: rest => rest.takeWhile (· != '>') :: namedGroups rest
  | _ :: rest => namedGroups rest

example : namedGroups r"^(?P<a>x)\(?P<b>(?:y)".toList = ["a".toList] := by decide

/-- The characters that `regex::escape` escapes. -/
def metaCharacters : List Char :=
  ['\\', '.', '+', '*', '?', '(', ')', '|', '[', ']', '\x7b', '\x7d', '^', '$', '#', '&', '-', '~']

/-- `regex::escape` -/
def escapeMeta (s : String) : String :=
  String.ofList (s.toList.flatMap fun c => if c ∈ metaCharacters then ['\\', c] else [c])

/-- The names that a column adds behind `ips` addresses and `ports` ports. -/
def ColumnKind.names (ips ports : ℕ) : ColumnKind → List String
  | .anchor _ => []
  | .ipPort _ => if ips = 0 then ["src_ip", "src_port"] else ["dst_ip", "dst_port"]
  | .ip => if ips = 0 then ["src_ip"] else ["dst_ip"]
  | .port => if ports = 0 then ["src_port"] else ["dst_port"]
  | .protocol => ["protocol"]
  | .action => ["action"]
  | .timestamp => ["timestamp"]
  | .other => []

def groupNames : ℕ → ℕ → List ColumnKind → List String
  | _, _, [] => []
  | ips, ports, kind :: kinds =>
    kind.names ips ports ++ groupNames (ips + kind.ips) (ports + kind.ports) kinds

/-! ### The scan of a pattern -/

lemma namedGroups_cons {c : Char} (hescape : c ≠ '\\') (hopen : c ≠ '(') (rest : Text) :
    namedGroups (c :: rest) = namedGroups rest := by
  conv_lhs => unfold namedGroups
  split
  · rename_i heq
    cases heq
  · rename_i heq
    exact absurd (List.cons.inj heq).1 hescape
  · rename_i heq
    exact absurd (List.cons.inj heq).1 hopen
  · rename_i heq
    rw [(List.cons.inj heq).2]

lemma namedGroups_escapeMeta (s : String) (rest : Text) :
    namedGroups ((escapeMeta s).toList ++ rest) = namedGroups rest := by
  rw [escapeMeta, String.toList_ofList]
  induction s.toList with
  | nil => rfl
  | cons c cs ih =>
    rw [List.flatMap_cons, List.append_assoc]
    split_ifs with hc
    · exact ih
    · have hescape : c ≠ '\\' := by
        rintro rfl
        exact hc (by decide)
      have hopen : c ≠ '(' := by
        rintro rfl
        exact hc (by decide)
      rw [List.singleton_append, namedGroups_cons hescape hopen, ih]

lemma namedGroups_part {escape : String → String} (hescape : escape = escapeMeta) (ips ports : ℕ)
    {kind : ColumnKind} (hkind : ∀ d, kind = .ipPort d → d = ':' ∨ d = '/') (rest : Text) :
    namedGroups ((kind.partText escape ips ports).toList ++ rest) =
      (kind.names ips ports).map String.toList ++ namedGroups rest := by
  unfold ColumnKind.partText ColumnKind.names
  cases kind with
  | anchor token =>
    rw [hescape]
    exact namedGroups_escapeMeta token rest
  | ipPort delimiter =>
    dsimp only
    rcases hkind delimiter rfl with rfl | rfl
    · split_ifs
      · rfl
      · rfl
    · split_ifs
      · rfl
      · rfl
  | ip =>
    dsimp only
    split_ifs
    · rfl
    · rfl
  | port =>
    dsimp only
    split_ifs
    · rfl
    · rfl
  | protocol =>
    dsimp only
    rfl
  | action =>
    dsimp only
    rfl
  | timestamp =>
    dsimp only
    rfl
  | other =>
    dsimp only
    rfl

lemma namedGroups_parts {escape : String → String} (hescape : escape = escapeMeta)
    {kinds : List ColumnKind} (hkinds : ∀ kind ∈ kinds, ∀ d, kind = .ipPort d → d = ':' ∨ d = '/')
    (ips ports : ℕ) (rest : Text) :
    namedGroups ((String.intercalate r"\s+" ((partsOf ips ports kinds).map
        (Regex.text escape))).toList ++ rest) =
      (groupNames ips ports kinds).map String.toList ++ namedGroups rest := by
  induction kinds generalizing ips ports with
  | nil => rfl
  | cons kind kinds ih =>
    rw [List.forall_mem_cons] at hkinds
    have hpart : (kind.part ips ports).text escape = kind.partText escape ips ports :=
      @text_part ⟨fun _ => none, escape⟩ ips ports kind
    cases hparts : partsOf (ips + kind.ips) (ports + kind.ports) kinds with
    | nil =>
      have hnone := ih hkinds.2 (ips + kind.ips) (ports + kind.ports)
      rw [hparts] at hnone
      rw [partsOf, hparts, groupNames, List.map_singleton, String.intercalate_singleton, hpart,
        namedGroups_part hescape ips ports hkinds.1, List.map_append, List.append_assoc, ← hnone]
      rfl
    | cons part parts =>
      have hne : (part :: parts).map (Regex.text escape) ≠ [] := by simp
      have hrest := ih hkinds.2 (ips + kind.ips) (ports + kind.ports)
      rw [hparts] at hrest
      have hspaces : ∀ s, namedGroups (r"\s+".toList ++ s) = namedGroups s := fun _ => rfl
      rw [partsOf, hparts, groupNames, List.map_cons, String.intercalate_cons_of_ne_nil hne, hpart,
        String.toList_append, String.toList_append, List.append_assoc, List.append_assoc,
        namedGroups_part hescape ips ports hkinds.1, hspaces, hrest, List.map_append,
        List.append_assoc]

section Columns

variable {regex : RegexCrate}

lemma delimiter_of_kindOf {col : List String} {d : Char} (h : kindOf regex col = .ipPort d) :
    d = ':' ∨ d = '/' := by
  unfold kindOf at h
  dsimp only at h
  split_ifs at h
  · exact Or.inl (ColumnKind.ipPort.inj h).symm
  · exact Or.inr (ColumnKind.ipPort.inj h).symm

def kindsOf (regex : RegexCrate) (samples : List String) : List ColumnKind :=
  (columnsOf samples).map (kindOf regex)

/-- The names in a positional pattern are those of its columns. -/
lemma namedGroups_positional (hescape : regex.escape = escapeMeta) {samples : List String}
    {pattern : String} (h : synthesizePositionalRegex regex samples = .ok pattern) :
    namedGroups pattern.toList = (groupNames 0 0 (kindsOf regex samples)).map String.toList := by
  have hstart : ∀ s, namedGroups ("^".toList ++ s) = namedGroups s := fun _ => rfl
  have hend : namedGroups "(?:.*)$".toList = [] := rfl
  have hkinds : ∀ kind ∈ kindsOf regex samples, ∀ d, kind = .ipPort d → d = ':' ∨ d = '/' := by
    intro kind hkind d hd
    obtain ⟨col, -, rfl⟩ := List.mem_map.mp hkind
    exact delimiter_of_kindOf hd
  rw [synthesizePositionalRegex_eq, synthesizePositional] at h
  split_ifs at h
  · cases h
  obtain rfl := Except.ok.inj h
  dsimp only
  rw [text_regex, positionalPattern]
  dsimp only
  rw [if_neg Bool.false_ne_true, if_pos rfl, text_positionalCore, String.toList_append,
    String.toList_append, List.append_assoc, hstart]
  have hnames := namedGroups_parts hescape hkinds 0 0 "(?:.*)$".toList
  rw [hend, List.append_nil] at hnames
  exact hnames

end Columns

/-! ### Names that repeat -/

def addresses (kinds : List ColumnKind) : ℕ := (kinds.map ColumnKind.ips).sum

def portCount (kinds : List ColumnKind) : ℕ := (kinds.map ColumnKind.ports).sum

/-- A column with an address and a port comes before all other ports if its address is the
first, and behind them otherwise. -/
def PortsInOrder (ips ports : ℕ) (kinds : List ColumnKind) : Prop :=
  ∀ before delimiter after, kinds = before ++ .ipPort delimiter :: after →
    (ips + addresses before = 0 → ports + portCount before = 0) ∧
      (ips + addresses before ≠ 0 → portCount after = 0)

/-- No more than two addresses, two ports and one column of the other kinds, and the ports in
order. -/
structure DistinctGroups (kinds : List ColumnKind) : Prop where
  addresses : addresses kinds ≤ 2
  ports : portCount kinds ≤ 2
  protocols : kinds.count .protocol ≤ 1
  actions : kinds.count .action ≤ 1
  timestamps : kinds.count .timestamp ≤ 1
  order : PortsInOrder 0 0 kinds

lemma portsInOrder_cons {ips ports : ℕ} {kind : ColumnKind} {kinds : List ColumnKind} :
    PortsInOrder ips ports (kind :: kinds) ↔
      (∀ delimiter, kind = .ipPort delimiter →
        (ips = 0 → ports = 0) ∧ (ips ≠ 0 → portCount kinds = 0)) ∧
      PortsInOrder (ips + kind.ips) (ports + kind.ports) kinds := by
  constructor
  · intro h
    refine ⟨?_, ?_⟩
    · rintro delimiter rfl
      exact h [] delimiter kinds rfl
    · rintro before delimiter after rfl
      have hfurther := h (kind :: before) delimiter after rfl
      simpa [addresses, portCount, Nat.add_assoc] using hfurther
  · rintro ⟨hfirst, hrest⟩ before delimiter after hsplit
    cases before with
    | nil =>
      obtain ⟨rfl, rfl⟩ := List.cons.inj hsplit
      exact hfirst delimiter rfl
    | cons kind' before =>
      obtain ⟨rfl, rfl⟩ := List.cons.inj hsplit
      have hfurther := hrest before delimiter after rfl
      simpa [addresses, portCount, Nat.add_assoc] using hfurther

lemma count_groupNames_cons (name : String) (ips ports : ℕ) (kind : ColumnKind)
    (kinds : List ColumnKind) :
    (groupNames ips ports (kind :: kinds)).count name = (kind.names ips ports).count name +
      (groupNames (ips + kind.ips) (ports + kind.ports) kinds).count name := by
  rw [groupNames, List.count_append]

lemma addressNames (ips ports : ℕ) (kind : ColumnKind) :
    kind.ips ≤ 1 ∧ (kind.names ips ports).count "src_ip" = (if ips = 0 then kind.ips else 0) ∧
      (kind.names ips ports).count "dst_ip" = if ips = 0 then 0 else kind.ips := by
  unfold ColumnKind.names
  cases kind with
  | ipPort delimiter => split_ifs <;> exact ⟨Nat.le_refl 1, rfl, rfl⟩
  | ip => split_ifs <;> exact ⟨Nat.le_refl 1, rfl, rfl⟩
  | port => split_ifs <;> exact ⟨Nat.zero_le 1, rfl, rfl⟩
  | anchor token => split_ifs <;> exact ⟨Nat.zero_le 1, rfl, rfl⟩
  | protocol => split_ifs <;> exact ⟨Nat.zero_le 1, rfl, rfl⟩
  | action => split_ifs <;> exact ⟨Nat.zero_le 1, rfl, rfl⟩
  | timestamp => split_ifs <;> exact ⟨Nat.zero_le 1, rfl, rfl⟩
  | other => split_ifs <;> exact ⟨Nat.zero_le 1, rfl, rfl⟩

lemma addresses_cons (kind : ColumnKind) (kinds : List ColumnKind) :
    addresses (kind :: kinds) = kind.ips + addresses kinds := rfl

lemma count_srcIp (ips ports : ℕ) (kinds : List ColumnKind) :
    (groupNames ips ports kinds).count "src_ip" =
      if ips = 0 then min 1 (addresses kinds) else 0 := by
  induction kinds generalizing ips ports with
  | nil => split_ifs <;> rfl
  | cons kind kinds ih =>
    obtain ⟨hle, hsrc, -⟩ := addressNames ips ports kind
    rw [count_groupNames_cons, ih, hsrc, addresses_cons]
    split_ifs <;> omega

lemma count_dstIp (ips ports : ℕ) (kinds : List ColumnKind) :
    (groupNames ips ports kinds).count "dst_ip" =
      if ips = 0 then addresses kinds - 1 else addresses kinds := by
  induction kinds generalizing ips ports with
  | nil => split_ifs <;> rfl
  | cons kind kinds ih =>
    obtain ⟨hle, -, hdst⟩ := addressNames ips ports kind
    rw [count_groupNames_cons, ih, hdst, addresses_cons]
    split_ifs <;> omega

lemma count_kind {name : String} {kind : ColumnKind}
    (h : ∀ kind' ips ports, (ColumnKind.names ips ports kind').count name =
      if kind' = kind then 1 else 0) (ips ports : ℕ) (kinds : List ColumnKind) :
    (groupNames ips ports kinds).count name = kinds.count kind := by
  induction kinds generalizing ips ports with
  | nil => rfl
  | cons kind' kinds ih =>
    rw [count_groupNames_cons, ih, h, List.count_cons, Nat.add_comm]
    simp

/-- The names of ports that a column gives. -/
inductive PortNames (ips ports : ℕ) (kind : ColumnKind) : Prop where
  | ipPort (delimiter : Char) (hkind : kind = .ipPort delimiter) (hips : kind.ips = 1)
      (hports : kind.ports = 1)
      (hsrc : (kind.names ips ports).count "src_port" = if ips = 0 then 1 else 0)
      (hdst : (kind.names ips ports).count "dst_port" = if ips = 0 then 0 else 1)
  | port (hkind : ∀ delimiter, kind ≠ .ipPort delimiter) (hports : kind.ports = 1)
      (hsrc : (kind.names ips ports).count "src_port" = if ports = 0 then 1 else 0)
      (hdst : (kind.names ips ports).count "dst_port" = if ports = 0 then 0 else 1)
  | other (hkind : ∀ delimiter, kind ≠ .ipPort delimiter) (hports : kind.ports = 0)
      (hsrc : (kind.names ips ports).count "src_port" = 0)
      (hdst : (kind.names ips ports).count "dst_port" = 0)

lemma portNames (ips ports : ℕ) (kind : ColumnKind) : PortNames ips ports kind := by
  cases kind with
  | anchor token => exact .other (by simp) rfl rfl rfl
  | ipPort delimiter =>
    apply PortNames.ipPort delimiter rfl rfl rfl
    · unfold ColumnKind.names
      split_ifs <;> rfl
    · unfold ColumnKind.names
      split_ifs <;> rfl
  | ip =>
    apply PortNames.other (by simp) rfl
    · unfold ColumnKind.names
      split_ifs <;> rfl
    · unfold ColumnKind.names
      split_ifs <;> rfl
  | port =>
    apply PortNames.port (by simp) rfl
    · unfold ColumnKind.names
      split_ifs <;> rfl
    · unfold ColumnKind.names
      split_ifs <;> rfl
  | protocol => exact .other (by simp) rfl rfl rfl
  | action => exact .other (by simp) rfl rfl rfl
  | timestamp => exact .other (by simp) rfl rfl rfl
  | other => exact .other (by simp) rfl rfl rfl

lemma portCount_cons (kind : ColumnKind) (kinds : List ColumnKind) :
    portCount (kind :: kinds) = kind.ports + portCount kinds := rfl

lemma count_srcPort_add_dstPort (ips ports : ℕ) (kinds : List ColumnKind) :
    (groupNames ips ports kinds).count "src_port" + (groupNames ips ports kinds).count "dst_port" =
      portCount kinds := by
  induction kinds generalizing ips ports with
  | nil => rfl
  | cons kind kinds ih =>
    have hrest := ih (ips + kind.ips) (ports + kind.ports)
    rw [count_groupNames_cons, count_groupNames_cons, portCount_cons]
    cases portNames ips ports kind with
    | ipPort delimiter hkind hips hports hsrc hdst => split_ifs at hsrc hdst <;> omega
    | port hkind hports hsrc hdst => split_ifs at hsrc hdst <;> omega
    | other hkind hports hsrc hdst => omega

lemma count_srcPort_of_ne_zero {ips ports : ℕ} (hips : ips ≠ 0) (hports : ports ≠ 0)
    (kinds : List ColumnKind) : (groupNames ips ports kinds).count "src_port" = 0 := by
  induction kinds generalizing ips ports with
  | nil => rfl
  | cons kind kinds ih =>
    rw [count_groupNames_cons, ih (by omega) (by omega)]
    cases portNames ips ports kind with
    | ipPort delimiter hkind hips' hports' hsrc hdst => rw [hsrc, if_neg hips]
    | port hkind hports' hsrc hdst => rw [hsrc, if_neg hports]
    | other hkind hports' hsrc hdst => rw [hsrc]

lemma count_srcPort_le {ips ports : ℕ} {kinds : List ColumnKind}
    (h : PortsInOrder ips ports kinds) :
    (groupNames ips ports kinds).count "src_port" ≤ if ports = 0 then 1 else 0 := by
  induction kinds generalizing ips ports with
  | nil => exact Nat.zero_le _
  | cons kind kinds ih =>
    obtain ⟨hfirst, hrest⟩ := portsInOrder_cons.mp h
    have hle := ih hrest
    rw [count_groupNames_cons]
    cases portNames ips ports kind with
    | ipPort delimiter hkind hips hports hsrc hdst =>
      have hzero := (hfirst delimiter hkind).1
      rw [if_neg (by omega)] at hle
      split_ifs at hsrc ⊢ <;> omega
    | port hkind hports hsrc hdst =>
      rw [if_neg (by omega)] at hle
      split_ifs at hsrc ⊢ <;> omega
    | other hkind hports hsrc hdst =>
      rw [hports] at hle ⊢
      rw [hsrc, Nat.zero_add]
      exact hle

lemma count_dstPort_le {ips : ℕ} {kinds : List ColumnKind} (h : PortsInOrder ips 0 kinds)
    (htwo : portCount kinds ≤ 2) : (groupNames ips 0 kinds).count "dst_port" ≤ 1 := by
  induction kinds generalizing ips with
  | nil => exact Nat.zero_le _
  | cons kind kinds ih =>
    obtain ⟨hfirst, hrest⟩ := portsInOrder_cons.mp h
    have htotal := count_srcPort_add_dstPort (ips + kind.ips) (0 + kind.ports) kinds
    rw [portCount_cons] at htwo
    rw [count_groupNames_cons]
    cases portNames ips 0 kind with
    | ipPort delimiter hkind hips hports hsrc hdst =>
      have hnone := (hfirst delimiter hkind).2
      split_ifs at hdst <;> omega
    | port hkind hports hsrc hdst =>
      rw [if_pos rfl] at hdst
      omega
    | other hkind hports hsrc hdst =>
      rw [hports] at hrest htwo ⊢
      have hle := ih hrest (by omega)
      rw [hdst, Nat.zero_add]
      exact hle

lemma portsInOrder_of_count {ips ports : ℕ} {kinds : List ColumnKind}
    (hsource : (groupNames ips ports kinds).count "src_port" ≤ if ports = 0 then 1 else 0)
    (hdest : (groupNames ips ports kinds).count "dst_port" ≤ 1) : PortsInOrder ips ports kinds := by
  induction kinds generalizing ips ports with
  | nil =>
    intro before delimiter after hsplit
    simp at hsplit
  | cons kind kinds ih =>
    have htotal := count_srcPort_add_dstPort (ips + kind.ips) (ports + kind.ports) kinds
    rw [count_groupNames_cons] at hsource hdest
    rw [portsInOrder_cons]
    cases portNames ips ports kind with
    | ipPort delimiter hkind hips hports hsrc hdst =>
      have hnone := @count_srcPort_of_ne_zero (ips + kind.ips) (ports + kind.ports) (by omega)
        (by omega) kinds
      refine ⟨fun _ _ => ⟨fun hzero => ?_, fun hzero => ?_⟩,
        ih (hnone.le.trans (Nat.zero_le _)) (by omega)⟩
      · rw [if_pos hzero] at hsrc
        split_ifs at hsource <;> omega
      · rw [if_neg hzero] at hdst
        omega
    | port hkind hports hsrc hdst =>
      refine ⟨fun delimiter h => absurd h (hkind delimiter), ih ?_ (by omega)⟩
      rw [if_neg (by omega)]
      split_ifs at hsource hsrc <;> omega
    | other hkind hports hsrc hdst =>
      refine ⟨fun delimiter h => absurd h (hkind delimiter), ih ?_ (by omega)⟩
      rw [hports] at hsource ⊢
      rw [hsrc, Nat.zero_add] at hsource
      exact hsource

lemma mem_groupNames {name : String} {ips ports : ℕ} {kinds : List ColumnKind}
    (h : name ∈ groupNames ips ports kinds) :
    name ∈ ["src_ip", "dst_ip", "src_port", "dst_port", "protocol", "action", "timestamp"] := by
  induction kinds generalizing ips ports with
  | nil => cases h
  | cons kind kinds ih =>
    rcases List.mem_append.mp h with hkind | hrest
    · revert hkind
      unfold ColumnKind.names
      cases kind with
      | ipPort delimiter =>
        dsimp only
        split_ifs <;> simp +contextual [or_imp]
      | ip =>
        dsimp only
        split_ifs <;> simp +contextual
      | port =>
        dsimp only
        split_ifs <;> simp +contextual
      | anchor token => simp
      | protocol => simp +contextual
      | action => simp +contextual
      | timestamp => simp +contextual
      | other => simp
    · exact ih hrest

theorem nodup_groupNames_iff (kinds : List ColumnKind) :
    (groupNames 0 0 kinds).Nodup ↔ DistinctGroups kinds := by
  have hsrcIp := count_srcIp 0 0 kinds
  have hdstIp := count_dstIp 0 0 kinds
  have hports := count_srcPort_add_dstPort 0 0 kinds
  have hprotocol : (groupNames 0 0 kinds).count "protocol" = kinds.count .protocol := by
    apply count_kind
    intro kind ips ports
    cases kind <;> simp [ColumnKind.names] <;> split_ifs <;> simp
  have haction : (groupNames 0 0 kinds).count "action" = kinds.count .action := by
    apply count_kind
    intro kind ips ports
    cases kind <;> simp [ColumnKind.names] <;> split_ifs <;> simp
  have htimestamp : (groupNames 0 0 kinds).count "timestamp" = kinds.count .timestamp := by
    apply count_kind
    intro kind ips ports
    cases kind <;> simp [ColumnKind.names] <;> split_ifs <;> simp
  rw [if_pos rfl] at hsrcIp hdstIp
  rw [List.nodup_iff_count_le_one]
  constructor
  · intro h
    have hsrcPort := h "src_port"
    have hdstPort := h "dst_port"
    have horder := @portsInOrder_of_count 0 0 kinds hsrcPort hdstPort
    have haddresses := h "dst_ip"
    exact ⟨by omega, by omega, hprotocol ▸ h "protocol", haction ▸ h "action",
      htimestamp ▸ h "timestamp", horder⟩
  · intro h name
    by_cases hmem : name ∈ groupNames 0 0 kinds
    · have haddresses := h.addresses
      have hsrcPort := count_srcPort_le h.order
      have hdstPort := count_dstPort_le h.order h.ports
      rw [if_pos rfl] at hsrcPort
      have hname := mem_groupNames hmem
      simp only [List.mem_cons, List.not_mem_nil, or_false] at hname
      rcases hname with rfl | rfl | rfl | rfl | rfl | rfl | rfl
      · omega
      · omega
      · exact hsrcPort
      · exact hdstPort
      · exact hprotocol ▸ h.protocols
      · exact haction ▸ h.actions
      · exact htimestamp ▸ h.timestamps
    · rw [List.count_eq_zero.mpr hmem]
      exact Nat.zero_le 1

/-! ### A crate with the expressions of addresses and ports -/

def wholeIpPort : CharRegex :=
  cat [start, capture "1" false ip, one (.set false [.char ':', .char '/']),
    capture "2" false port, stop]

def wholeIp : CharRegex := seq start (seq ip stop)

def wholePort : CharRegex := seq start (seq port stop)

example : wholeIpPort.text id = reIpPort ∧ wholeIp.text id = reIp ∧ wholePort.text id = rePort := by
  decide +kernel

def addressCrate : RegexCrate where
  new pattern :=
    if pattern = reIpPort then some (compile asciiClasses wholeIpPort)
    else if pattern = reIp then some (compile asciiClasses wholeIp)
    else if pattern = rePort then some (compile asciiClasses wholePort)
    else none
  escape := escapeMeta

/-- No name repeats in a positional pattern exactly if the columns give each name once at most. -/
theorem positional_groups_distinct_iff {regex : RegexCrate} (hescape : regex.escape = escapeMeta)
    {samples : List String} {pattern : String}
    (h : synthesizePositionalRegex regex samples = .ok pattern) :
    (namedGroups pattern.toList).Nodup ↔ DistinctGroups (kindsOf regex samples) := by
  rw [namedGroups_positional hescape h, ← nodup_groupNames_iff,
    List.nodup_map_iff fun _ _ => String.toList_inj.mp]

theorem positional_groups_distinct_port :
    DistinctGroups (kindsOf addressCrate
      ["in 1.1.1.1:5 2.2.2.2 80", "in 3.3.3.3:6 4.4.4.4 81"]) := by
  have hok : (synthesizePositionalRegex addressCrate
      ["in 1.1.1.1:5 2.2.2.2 80", "in 3.3.3.3:6 4.4.4.4 81"]).toOption.any
        (fun pattern => decide (namedGroups pattern.toList).Nodup) = true := by decide +kernel
  obtain ⟨pattern, h, hnodup⟩ := exists_of_toOption hok
  exact (positional_groups_distinct_iff rfl h).mp (of_decide_eq_true hnodup)

/-- An address before and one behind translation, and a destination. -/
theorem third_address_repeats : ∃ pattern,
    synthesizePositionalRegex addressCrate ["1.1.1.1 2.2.2.2 3.3.3.3", "4.4.4.4 5.5.5.5 6.6.6.6"] =
      .ok pattern ∧ ¬(namedGroups pattern.toList).Nodup := by
  have hok : (synthesizePositionalRegex addressCrate
      ["1.1.1.1 2.2.2.2 3.3.3.3", "4.4.4.4 5.5.5.5 6.6.6.6"]).toOption.any
        (fun pattern => decide (¬(namedGroups pattern.toList).Nodup)) = true := by decide +kernel
  obtain ⟨pattern, h, hrepeats⟩ := exists_of_toOption hok
  exact ⟨pattern, h, of_decide_eq_true hrepeats⟩

end Ulpf.Ai.Onboarder
