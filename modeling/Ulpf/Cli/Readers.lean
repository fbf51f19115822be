import Ulpf.Core.SyslogListeners

/-!
# The readers of the ingest engine

`run_ingest` has a UDP and a TCP reader of its own, which send each line as they read it. What
all readers lose to bytes that are not UTF-8: the rest of the stream after such a line, and the
whole datagram around it.
-/

namespace Ulpf.Cli
open Ulpf.Library Ulpf.Core

/-- The channel of raw lines and the counter of what was put into it. -/
structure RawFeed where
  totalIngested : ℕ
  sent : List Text

namespace RawFeed

def pushLine (feed : RawFeed) (line : Text) : RawFeed :=
  let trimmed := trim line
  if trimmed = [] then feed else ⟨feed.totalIngested + 1, feed.sent ++ [trimmed]⟩

/-- The UDP reader on a datagram, as far as `recv_from` has put it into the buffer. -/
def receiveDatagram (feed : RawFeed) (payload : List UInt8) : RawFeed :=
  match fromUtf8 payload with
  | some text => (lines text).foldl pushLine feed
  | none => feed

def readLines : RawFeed → List (Option Text) → RawFeed
  | feed, some line :: answers => readLines (feed.pushLine line) answers
  | feed, _ => feed

/-- The TCP reader on a connection, to the end of its stream. -/
def readConnection (feed : RawFeed) (stream : List UInt8) : RawFeed :=
  feed.readLines (nextLines stream)

/-- The feed has grown by some lines, each counted. -/
structure Grows (feed feed' : RawFeed) (taken : List Text) : Prop where
  sent : feed'.sent = feed.sent ++ taken
  totalIngested : feed'.totalIngested = feed.totalIngested + taken.length

lemma Grows.refl (feed : RawFeed) : Grows feed feed [] := ⟨by simp, rfl⟩

lemma Grows.trans {feed feed' feed'' : RawFeed} {l l' : List Text} (h : Grows feed feed' l)
    (h' : Grows feed' feed'' l') : Grows feed feed'' (l ++ l') where
  sent := by rw [h'.sent, h.sent, List.append_assoc]
  totalIngested := by rw [h'.totalIngested, h.totalIngested, List.length_append, Nat.add_assoc]

lemma grows_pushLine (feed : RawFeed) (line : Text) :
    Grows feed (feed.pushLine line) (trimmedLines [line]) := by
  rw [pushLine, trimmedLines_singleton]
  by_cases hblank : trim line = []
  · rw [if_pos hblank, if_pos hblank]
    exact Grows.refl feed
  · rw [if_neg hblank, if_neg hblank]
    exact ⟨rfl, rfl⟩

lemma grows_foldl (feed : RawFeed) (l : List Text) :
    Grows feed (l.foldl pushLine feed) (trimmedLines l) := by
  induction l generalizing feed with
  | nil => exact Grows.refl feed
  | cons line l ih =>
    rw [trimmedLines_cons]
    exact (grows_pushLine feed line).trans (ih (feed.pushLine line))

lemma grows_receiveDatagram (feed : RawFeed) (payload : List UInt8) :
    Grows feed (feed.receiveDatagram payload) (UdpEvent.received payload).lines := by
  rw [receiveDatagram, UdpEvent.lines]
  cases htext : fromUtf8 payload with
  | none => exact Grows.refl feed
  | some text =>
    rw [deliverable_of_fromUtf8 htext]
    exact grows_foldl feed (lines text)

lemma grows_readLines (feed : RawFeed) (answers : List (Option Text)) :
    Grows feed (feed.readLines answers) (readable answers) := by
  induction answers generalizing feed with
  | nil => exact Grows.refl feed
  | cons answer answers ih =>
    cases answer with
    | none => exact Grows.refl feed
    | some line => exact (grows_pushLine feed line).trans (ih (feed.pushLine line))

lemma grows_readConnection (feed : RawFeed) (stream : List UInt8) :
    Grows feed (feed.readConnection stream) (readable ((stream.splitOn 10).map fromUtf8)) := by
  rw [← readable_nextLines]
  exact grows_readLines feed (nextLines stream)

end RawFeed

/-! ### Bytes that are not UTF-8 -/

/-- After a line that is not UTF-8 there is none that could be delivered. -/
def NoneAfterUndecodable (parts : List (List UInt8)) : Prop :=
  ∀ before bad after, parts = before ++ bad :: after → fromUtf8 bad = none →
    trimmedLines (after.filterMap fromUtf8) = []

lemma noneAfterUndecodable_cons {part : List UInt8} {parts : List (List UInt8)} :
    NoneAfterUndecodable (part :: parts) ↔
      (fromUtf8 part = none → trimmedLines (parts.filterMap fromUtf8) = []) ∧
        NoneAfterUndecodable parts := by
  constructor
  · intro h
    refine ⟨h [] part parts rfl, ?_⟩
    rintro before bad after rfl
    exact h (part :: before) bad after rfl
  · rintro ⟨hfirst, hrest⟩ before bad after hsplit hbad
    cases before with
    | nil =>
      cases hsplit
      exact hfirst hbad
    | cons part before =>
      cases hsplit
      exact hrest before bad after rfl hbad

lemma noneAfterUndecodable_of_nil {parts : List (List UInt8)}
    (h : trimmedLines (parts.filterMap fromUtf8) = []) : NoneAfterUndecodable parts := by
  rintro before bad after rfl hbad
  rw [List.filterMap_append, trimmedLines_append, List.append_eq_nil_iff,
    List.filterMap_cons_none hbad] at h
  exact h.2

/-- A stream is read as far as it should be exactly if nothing of use follows what is not UTF-8. -/
lemma readable_eq_iff (parts : List (List UInt8)) :
    readable (parts.map fromUtf8) = trimmedLines (parts.filterMap fromUtf8) ↔
      NoneAfterUndecodable parts := by
  induction parts with
  | nil =>
    refine iff_of_true rfl ?_
    intro before bad after hsplit
    cases before <;> cases hsplit
  | cons part parts ih =>
    rw [noneAfterUndecodable_cons]
    cases hpart : fromUtf8 part with
    | none =>
      rw [List.map_cons, hpart, List.filterMap_cons_none hpart]
      simp only [readable, true_imp_iff]
      constructor
      · exact fun h => ⟨h.symm, noneAfterUndecodable_of_nil h.symm⟩
      · exact fun h => h.1.symm
    | some line =>
      rw [List.map_cons, hpart, List.filterMap_cons_some hpart, trimmedLines_cons, ← ih]
      simp [readable]

lemma received_lines_eq_iff (payload : List UInt8) :
    (UdpEvent.received payload).lines = deliverable payload ↔
      (fromUtf8 payload).isSome ∨ deliverable payload = [] := by
  rw [UdpEvent.lines]
  split_ifs with hutf8
  · exact iff_of_true rfl (Or.inl hutf8)
  · rw [or_iff_right hutf8, eq_comm]

/-- Every reader delivers all lines that are UTF-8 and not blank, exactly if the bytes are whole:
in a stream none of these lines comes after one that is not UTF-8, and a datagram with one of
these lines is UTF-8 throughout. -/
theorem valid_lines_delivered_iff (config : IngestConfig) (clock : ℕ → ℕ) (s : LineBatcher)
    (feed : RawFeed) (bytes : List UInt8) :
    ((TcpSyslogListener.readConnection config clock bytes).sent.flatten = deliverable bytes ↔
        NoneAfterUndecodable (bytes.splitOn 10)) ∧
      ((UdpSyslogListener.step config clock s (.received bytes)).delivered =
          s.delivered ++ deliverable bytes ↔ (fromUtf8 bytes).isSome ∨ deliverable bytes = []) ∧
      ((feed.readConnection bytes).sent = feed.sent ++ deliverable bytes ↔
        NoneAfterUndecodable (bytes.splitOn 10)) ∧
      ((feed.receiveDatagram bytes).sent = feed.sent ++ deliverable bytes ↔
        (fromUtf8 bytes).isSome ∨ deliverable bytes = []) := by
  refine ⟨?_, ?_, ?_, ?_⟩
  · rw [(TcpSyslogListener.readConnection_spec config clock bytes).1]
    exact readable_eq_iff _
  · rw [(UdpSyslogListener.takesIn_step s (.received bytes)).delivered, List.append_right_inj]
    exact received_lines_eq_iff bytes
  · rw [(feed.grows_readConnection bytes).sent, List.append_right_inj]
    exact readable_eq_iff _
  · rw [(feed.grows_receiveDatagram bytes).sent, List.append_right_inj]
    exact received_lines_eq_iff bytes

/-- A first line of one byte that is not UTF-8 costs the second line, for every reader. -/
theorem undecodable_line_costs_another :
    let bytes := [0xff, 10, 97]
    let feed : RawFeed := ⟨0, []⟩
    deliverable bytes = [['a']] ∧
      (TcpSyslogListener.readConnection {} id bytes).sent = [] ∧
      (UdpSyslogListener.step {} id (.start id) (.received bytes)).delivered = [] ∧
      (feed.readConnection bytes).sent = [] ∧ (feed.receiveDatagram bytes).sent = [] := by
  decide +kernel

end Ulpf.Cli
