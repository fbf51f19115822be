import Mathlib.Data.List.Sort
import Ulpf.Core.Text
import Ulpf.Library.Binary64

/-!
# The decision engine

The vendor of a line is chosen by a softmax over the weights of the tokens found in it. The
exponential of the floating-point unit is a parameter; scores are small multiples of the token
weight, so adding them up is exact.
-/

namespace Ulpf.Ai
open Ulpf.Core
open Ulpf.Library.Binary64

/-- Discrete typed choice with calibrated probabilities -/
structure LayaChoice where
  label : String
  probability : ℚ
  rankings : List (String × ℚ)

/-- The literals `0.001` and `0.999`. -/
def minProbability : ℚ := nearest (1 / 1000)
def maxProbability : ℚ := nearest (999 / 1000)

def clamp (lo hi x : ℚ) : ℚ := if x < lo then lo else if hi < x then hi else x

namespace LayaDecisionEngine

def vendorTokenPriors : List (String × List String) :=
  [("cisco_asa",
      ["%ASA-", "Built", "Teardown", "outside:", "inside:", "connection", "inbound", "outbound"]),
    ("fortigate",
      ["CEF:0|Fortinet", "|Fortinet|", "FortiGate", "devname=", "type=\"traffic\"", "logid=",
        "vd=\"root\"", "subtype=\"forward\"", "srcip=", "dstip="]),
    ("paloalto",
      [",TRAFFIC,", ",THREAT,", "Trust_to_Untrust", "pan-os", "vsys1", "Trust", "Untrust"]),
    ("suricata",
      ["\"timestamp\":", "\"event_type\":", "\"flow_id\":", "\"alert\":", "\"app_proto\":",
        "\"dest_port\":"]),
    ("pfsense", ["filterlog[", "filterlog:", "pass", "block", "match", "igb0", "em0"]),
    ("kaggle_firewall",
      ["%KAGGLE-FW-", "firewall-kaggle", "src_port=", "dst_port=", "nat_src_port=",
        "sent_bytes="]),
    ("juniper_srx",
      ["RT_FLOW:", "RT_FLOW_SESSION_CREATE", "session", "created", "ge-0/0/0", "sample-policy"]),
    ("checkpoint", ["CheckPoint-FW", "Quantum", "rule", "accept", "drop", "reject"])]

def vendorCandidates : List String :=
  ["cisco_asa", "fortigate", "paloalto", "suricata", "pfsense", "kaggle_firewall", "juniper_srx",
    "checkpoint"]

def matchWeight (weight : ℚ) (input : Text) (priors : List String) : ℚ :=
  priors.foldl (fun acc token => if contains input token then acc + weight else acc) 0

def vendorScores (input : Text) : List (String × ℚ) :=
  vendorCandidates.map fun vendor =>
    (vendor, ((vendorTokenPriors.lookup vendor).map (matchWeight 2.5 input)).getD 0)

section Softmax

variable (exp : ℚ → ℚ)

def totalRaw (scores : List (String × ℚ)) : ℚ :=
  scores.foldl (fun acc score => nearest (acc + exp score.2)) 0

/-- The calibrated probabilities, the highest first; equal ones keep their order. -/
def rank (scores : List (String × ℚ)) : List (String × ℚ) :=
  (scores.map fun (label, score) =>
    (label, clamp minProbability maxProbability (divide (exp score) (totalRaw exp scores))))
  |>.insertionSort fun a b => b.2 ≤ a.2

/-- Classify log vendor across candidate taxonomy -/
def classifyVendor (input : Text) : LayaChoice :=
  let rankings := rank exp (vendorScores input)
  let top := rankings.head?.getD ("unknown", 0.5)
  ⟨top.1, top.2, rankings⟩

end Softmax

/-! ### Choices -/

variable {exp : ℚ → ℚ} {scores : List (String × ℚ)}

lemma clamp_mem {lo hi : ℚ} (h : lo ≤ hi) (x : ℚ) : lo ≤ clamp lo hi x ∧ clamp lo hi x ≤ hi := by
  unfold clamp
  split_ifs with hlo hhi
  · exact ⟨le_rfl, h⟩
  · exact ⟨h, le_rfl⟩
  · exact ⟨not_lt.mp hlo, not_lt.mp hhi⟩

lemma minProbability_le_max : minProbability ≤ maxProbability :=
  nearest_mono (by norm_num) (by norm_num)

variable (exp scores) in
lemma pairwise_rank : (rank exp scores).Pairwise fun a b => b.2 ≤ a.2 := by
  have htotal : Std.Total fun a b : String × ℚ => b.2 ≤ a.2 := ⟨fun a b => le_total b.2 a.2⟩
  have htrans : IsTrans (String × ℚ) fun a b => b.2 ≤ a.2 := ⟨fun a b c hab hbc => hbc.trans hab⟩
  exact List.pairwise_insertionSort _ _

lemma mem_rank_iff {e : String × ℚ} : e ∈ rank exp scores ↔ ∃ score ∈ scores, e =
    (score.1, clamp minProbability maxProbability
      (divide (exp score.2) (totalRaw exp scores))) := by
  rw [rank, List.mem_insertionSort, List.mem_map]
  exact exists_congr fun score => and_congr_right fun _ => eq_comm

/-- The chosen vendor is a candidate, its probability is calibrated and no candidate has a
higher one. -/
theorem classifyVendor_top (exp : ℚ → ℚ) (input : Text) :
    let choice := classifyVendor exp input
    choice.label ∈ vendorCandidates ∧
      minProbability ≤ choice.probability ∧ choice.probability ≤ maxProbability ∧
      ∀ e ∈ choice.rankings, e.2 ≤ choice.probability := by
  have hne : rank exp (vendorScores input) ≠ [] := by
    intro hnil
    have hlength := congrArg List.length hnil
    rw [rank, List.length_insertionSort, List.length_map, vendorScores, List.length_map] at hlength
    cases hlength
  obtain ⟨top, rest, hrank⟩ := List.exists_cons_of_ne_nil hne
  have hchoice : classifyVendor exp input = ⟨top.1, top.2, top :: rest⟩ := by
    rw [classifyVendor, hrank]
    rfl
  have htop : top ∈ rank exp (vendorScores input) := by
    rw [hrank]
    exact List.mem_cons_self ..
  have hsorted := pairwise_rank exp (vendorScores input)
  rw [hrank, List.pairwise_cons] at hsorted
  obtain ⟨score, hscore, heq⟩ := mem_rank_iff.mp htop
  have hclamp := clamp_mem minProbability_le_max
    (divide (exp score.2) (totalRaw exp (vendorScores input)))
  rw [hchoice]
  refine ⟨?_, ?_, ?_, ?_⟩
  · obtain ⟨vendor, hvendor, rfl⟩ := List.mem_map.mp hscore
    rw [heq]
    exact hvendor
  · rw [heq]
    exact hclamp.1
  · rw [heq]
    exact hclamp.2
  · intro e he
    rcases List.mem_cons.mp he with rfl | hrest
    · exact le_rfl
    · exact hsorted.1 e hrest

end LayaDecisionEngine

end Ulpf.Ai
