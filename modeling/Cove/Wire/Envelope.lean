import Cove.Wire.Codec

/-! What decoding promises of an envelope. -/

namespace Cove

open Checked

/-- The outputs an envelope gives tokens to, and how many. -/
def ParsedEnvelopeV2.allocated : ParsedEnvelopeV2 → List TokenAllocation
  | .deploy _ _ _ => []
  | .mint _ amount recipientVout => [⟨recipientVout, amount⟩]
  | .transfer _ allocations => allocations
  | .redeem _ _ changeAllocations => changeAllocations

structure ParsedEnvelopeV2.WellFormed (e : ParsedEnvelopeV2) : Prop where
  vouts_nodup : (e.allocated.map TokenAllocation.vout).Nodup
  amounts_pos : ∀ a ∈ e.allocated, 0 < a.amount

theorem readAmount_pos {payload : Bytes} {offset : Nat} (h : readAmount payload offset ≠ 0) :
    0 < readAmount payload offset := by
  have h0 : 0 ≤ readAmount payload offset := Int.natCast_nonneg _
  omega

theorem readAllocationsLoop_spec {payload : Bytes} {count offset : Nat} {seen : List Nat} {total : Int}
    {l : List TokenAllocation} (h : readAllocationsLoop payload count offset seen total = .ok l) :
    (l.map TokenAllocation.vout).Nodup ∧ (∀ a ∈ l, a.vout ∉ seen) ∧ ∀ a ∈ l, 0 < a.amount := by
  induction count generalizing offset seen total l with
  | zero =>
    simp only [readAllocationsLoop, Except.ok.injEq] at h
    subst h
    simp
  | succ count ih =>
    simp only [readAllocationsLoop, bind_eq_ok, ensure_eq_ok, pure_eq_ok] at h
    obtain ⟨_, hz, _, hs, _, -, rest, hr, rfl⟩ := h
    obtain ⟨hn, hseen, hpos⟩ := ih hr
    refine ⟨?_, ?_, ?_⟩
    · rw [List.map_cons, List.nodup_cons]
      refine ⟨?_, hn⟩
      intro hm
      obtain ⟨a, ha, hv⟩ := List.mem_map.mp hm
      exact hseen a ha (by rw [hv]; exact List.mem_cons_self)
    · intro a ha
      rcases List.mem_cons.mp ha with rfl | ha
      · exact hs
      · exact fun hm => hseen a ha (List.mem_cons_of_mem _ hm)
    · intro a ha
      rcases List.mem_cons.mp ha with rfl | ha
      · exact readAmount_pos hz
      · exact hpos a ha

theorem readAllocations_spec {payload : Bytes} {offset count max : Nat} {l : List TokenAllocation}
    (h : readAllocations payload offset count max = .ok l) :
    (l.map TokenAllocation.vout).Nodup ∧ ∀ a ∈ l, 0 < a.amount := by
  simp only [readAllocations, bind_eq_ok, ensure_eq_ok] at h
  obtain ⟨_, -, hl⟩ := h
  obtain ⟨hn, -, hp⟩ := readAllocationsLoop_spec hl
  exact ⟨hn, hp⟩

theorem decodeV2_header {payload : Bytes} {e : ParsedEnvelopeV2} (h : decodeV2 payload = .ok e) :
    4 ≤ payload.length ∧ (payload.slice 0 2).toNatBE = coveWireMagic := by
  simp only [decodeV2, readHeaderV2, bind_eq_ok, ensure_eq_ok] at h
  obtain ⟨_, ⟨_, hlen, _, hmagic, -⟩, -⟩ := h
  exact ⟨hlen, hmagic⟩

theorem decodeV2_wellFormed {payload : Bytes} {e : ParsedEnvelopeV2} (h : decodeV2 payload = .ok e) :
    e.WellFormed := by
  simp only [decodeV2, bind_eq_ok] at h
  obtain ⟨op, -, h⟩ := h
  split at h
  · simp only [decodeDeploy, bind_eq_ok, pure_eq_ok] at h
    obtain ⟨_, -, _, -, _, -, _, -, _, -, _, -, rfl⟩ := h
    exact ⟨List.nodup_nil, by simp [ParsedEnvelopeV2.allocated]⟩
  split at h
  · simp only [decodeMint, bind_eq_ok, ensure_eq_ok, pure_eq_ok] at h
    obtain ⟨_, -, _, -, _, hz, rfl⟩ := h
    exact ⟨List.nodup_singleton _, by simpa [ParsedEnvelopeV2.allocated] using readAmount_pos hz⟩
  split at h
  · simp only [decodeTransfer, bind_eq_ok, pure_eq_ok] at h
    obtain ⟨_, -, _, -, _, -, _, -, l, hl, rfl⟩ := h
    exact ⟨(readAllocations_spec hl).1, (readAllocations_spec hl).2⟩
  split at h
  · simp only [decodeRedeem, bind_eq_ok, pure_eq_ok] at h
    obtain ⟨_, -, _, -, _, -, _, -, l, hl, rfl⟩ := h
    exact ⟨(readAllocations_spec hl).1, (readAllocations_spec hl).2⟩
  · simp at h

end Cove
