import Cove.Wire.RoundTrip

/-! What the indexer takes a transaction for, told from output 0 alone: the envelopes are read
exactly, but the length byte is looked at before the magic. -/

namespace Cove

/-- The data of the first push of a script, as Script reads it. A push that the script's end
cuts short has what is left. -/
def firstPush : Bytes → Option Bytes
  | [] => none
  | op :: rest =>
    let counted (width : Nat) : Bytes := (rest.drop width).take (Bytes.toNatBE (rest.take width).reverse)
    if op ≤ 0x4b then some (rest.take op.toNat)
    else if op = 0x4c then some (counted 1)
    else if op = 0x4d then some (counted 2)
    else if op = 0x4e then some (counted 4)
    else none

def startsWithMagic (data : Bytes) : Bool := (Bytes.ofNatBE 2 coveWireMagic).isPrefixOf data

def script0 (tx : Transaction) : Option Bytes := tx.outs[0]?.map TxOut.script

/-- Output 0 is an `OP_RETURN` whose data starts with the Cove magic. -/
def carriesCoveMagic (tx : Transaction) : Bool :=
  match script0 tx with
  | some (0x6a :: pushes) => (firstPush pushes).any startsWithMagic
  | _ => false

/-- Output 0 is `OP_RETURN` and one direct push of the encoding of the envelope, whose ticker is
in upper case. -/
def Encodes (tx : Transaction) (envelope : ParsedEnvelopeV2) : Prop :=
  ∃ payload, envelope.canonical = envelope ∧ reencodeV2 envelope = .ok payload ∧
    script0 tx = some (0x6a :: UInt8.ofNat payload.length :: payload)

/-- A transaction is taken for an envelope when it encodes it, for an invalid one only when it
carries the magic, and for a foreign one otherwise. -/
structure ClassifiedExactly (tx : Transaction) : Prop where
  cove : ∀ envelope, parseCoveTx tx = .cove envelope ↔ Encodes tx envelope
  invalid : ∀ reason, parseCoveTx tx = .invalid reason → carriesCoveMagic tx = true
  other : (∀ envelope, ¬ Encodes tx envelope) → carriesCoveMagic tx = false →
    parseCoveTx tx = .nonCove

/-- Output 0 is no `OP_RETURN` with a length byte, or its data starts with the magic, or the byte
counts the bytes after it and these do not start with the magic. -/
def spelledPlainly (tx : Transaction) : Bool :=
  match script0 tx with
  | some (0x6a :: len :: payload) =>
    carriesCoveMagic tx || (payload.length = len.toNat && !startsWithMagic payload)
  | _ => true

section

variable {tx : Transaction}

theorem startsWithMagic_iff {data : Bytes} :
    startsWithMagic data = true ↔ ∃ rest, data = 0x43 :: 0x56 :: rest := by
  have hmagic : Bytes.ofNatBE 2 coveWireMagic = [0x43, 0x56] := by decide
  rw [startsWithMagic, hmagic, List.isPrefixOf_iff_prefix]
  constructor
  · intro h
    obtain ⟨rest, hrest⟩ := h
    exact ⟨rest, hrest.symm⟩
  · intro h
    obtain ⟨rest, hrest⟩ := h
    exact ⟨rest, hrest.symm⟩

/-- The two bytes that are read as a number are the magic. -/
theorem toNatBE_slice_eq_magic {data : Bytes} (hlen : 2 ≤ data.length) :
    (data.slice 0 2).toNatBE = coveWireMagic ↔ startsWithMagic data = true := by
  obtain ⟨x, y, rest, rfl⟩ : ∃ x y rest, data = x :: y :: rest := by
    match data, hlen with
    | x :: y :: rest, _ => exact ⟨x, y, rest, rfl⟩
  have hslice : Bytes.slice (x :: y :: rest) 0 2 = [x, y] := rfl
  rw [hslice, startsWithMagic_iff]
  constructor
  · intro h
    have hback := Bytes.ofNatBE_toNatBE [x, y]
    rw [h] at hback
    have hmagic : Bytes.ofNatBE 2 coveWireMagic = [0x43, 0x56] := by decide
    rw [show [x, y].length = 2 from rfl, hmagic] at hback
    obtain ⟨rfl, hy⟩ := List.cons.inj hback
    obtain ⟨rfl, -⟩ := List.cons.inj hy
    exact ⟨rest, rfl⟩
  · intro h
    obtain ⟨rest', h⟩ := h
    obtain ⟨hx, h⟩ := List.cons.inj h
    obtain ⟨hy, -⟩ := List.cons.inj h
    rw [hx, hy]
    decide

/-! The three outcomes. -/

theorem parseCoveTx_no_opReturn
    (h : ∀ len payload, script0 tx ≠ some (0x6a :: len :: payload)) : parseCoveTx tx = .nonCove := by
  unfold parseCoveTx
  cases hout : tx.outs[0]? with
  | none => rfl
  | some out0 =>
    obtain ⟨script, value⟩ := out0
    dsimp only
    rw [if_pos]
    match script with
    | [] => simp
    | [_] => simp
    | x :: len :: payload =>
      right
      intro hx
      have hx : x = 0x6a := hx
      exact h len payload (by rw [script0, hout, hx]; rfl)

theorem exists_out_of_script0 {script : Bytes} (h : script0 tx = some script) :
    ∃ out0, tx.outs[0]? = some out0 ∧ out0.script = script := Option.map_eq_some_iff.mp h

section OpReturn

variable {len : UInt8} {payload : Bytes} (hout : script0 tx = some (0x6a :: len :: payload))

include hout

theorem parseCoveTx_bad_length (hlen : payload.length ≠ len.toNat) :
    parseCoveTx tx = .invalid "BAD_OP_RETURN_LENGTH" := by
  obtain ⟨out0, hget, hscript⟩ := exists_out_of_script0 hout
  simp only [parseCoveTx, hget, hscript]
  rw [if_neg, if_pos]
  · simp only [List.length_cons, List.getD_cons_succ, List.getD_cons_zero]
    omega
  · simp

/-- A length byte that is right leaves the payload to decide. -/
theorem parseCoveTx_payload (hlen : payload.length = len.toNat) :
    parseCoveTx tx =
      if 4 ≤ payload.length ∧ startsWithMagic payload = true then
        match decodeV2 payload with
        | .ok envelope => .cove envelope
        | .error f => .invalid (f.code.getD "MALFORMED_WIRE")
      else .nonCove := by
  obtain ⟨out0, hget, hscript⟩ := exists_out_of_script0 hout
  simp only [parseCoveTx, hget, hscript]
  have hcount : ¬ (0x6a :: len :: payload : Bytes).length ≠
      2 + ((0x6a :: len :: payload : Bytes).getD 1 0).toNat := by
    simp only [List.length_cons, List.getD_cons_succ, List.getD_cons_zero]
    omega
  rw [if_neg (by simp), if_neg hcount]
  simp only [List.drop_succ_cons, List.drop_zero]
  by_cases h4 : 4 ≤ payload.length
  · have hiff := @toNatBE_slice_eq_magic payload (by omega)
    by_cases hm : startsWithMagic payload = true
    · have hnot : ¬ (payload.length < 4 ∨ (Bytes.slice payload 0 2).toNatBE ≠ coveWireMagic) := by
        rw [not_or, not_not]
        exact ⟨by omega, hiff.mpr hm⟩
      have hboth : 4 ≤ payload.length ∧ startsWithMagic payload = true := ⟨h4, hm⟩
      cases decodeV2 payload with
      | ok envelope => simp only [if_neg hnot, if_pos hboth]
      | error f => simp only [if_neg hnot, if_pos hboth]
    · rw [if_pos (Or.inr (mt hiff.mp hm)), if_neg (fun h => hm h.2)]
  · rw [if_pos (Or.inl (by omega)), if_neg (fun h => h4 h.1)]

theorem carriesCoveMagic_eq :
    carriesCoveMagic tx = (firstPush (len :: payload)).any startsWithMagic := by
  unfold carriesCoveMagic
  rw [hout]
  rfl

/-- What a direct push holds is what follows its length byte. -/
theorem carriesCoveMagic_direct (hlen : payload.length = len.toNat) (hdirect : len ≤ 0x4b) :
    carriesCoveMagic tx = startsWithMagic payload := by
  rw [carriesCoveMagic_eq hout, firstPush]
  simp only [if_pos hdirect, Option.any_some]
  rw [← hlen, List.take_length]

end OpReturn

theorem parseCoveTx_cove_iff {envelope : ParsedEnvelopeV2} :
    parseCoveTx tx = .cove envelope ↔ Encodes tx envelope := by
  constructor
  · intro h
    obtain ⟨out0, hout, hop, hpush, hdecode⟩ := parseCoveTx_eq_cove.mp h
    have hencode := reencode_decodeV2 hdecode
    have hcanonical : envelope.canonical = envelope := by
      have hback := decode_reencodeV2 hencode
      rw [hdecode] at hback
      exact (Except.ok.inj hback).symm
    have hlong := (decodeV2_header hdecode).1
    obtain ⟨script, value⟩ := out0
    match script with
    | x :: len :: payload =>
      obtain rfl : x = 0x6a := hop
      have hlen : payload.length = len.toNat := by
        simp only [List.length_cons, List.getD_cons_succ, List.getD_cons_zero] at hpush
        omega
      refine ⟨payload, hcanonical, hencode, ?_⟩
      rw [script0, hout, hlen, UInt8.ofNat_toNat]
      rfl
    | [] => simp at hlong
    | [_] => simp at hlong
  · intro h
    obtain ⟨payload, hcanonical, hencode, hscript⟩ := h
    obtain ⟨out0, hout, hscript⟩ := exists_out_of_script0 hscript
    have hdecode := decode_reencodeV2 hencode
    rw [hcanonical] at hdecode
    exact parseCoveTx_opReturn hdecode hout hscript

/-- Classification is exact for the transactions whose output 0 is spelled plainly, and for no
others: a length byte that does not count the rest makes any `OP_RETURN` an invalid one. -/
theorem classified_exactly_iff (tx : Transaction) : ClassifiedExactly tx ↔ spelledPlainly tx = true := by
  by_cases hop : ∃ len payload, script0 tx = some (0x6a :: len :: payload)
  · obtain ⟨len, payload, hout⟩ := hop
    have hspelled : spelledPlainly tx = true ↔ carriesCoveMagic tx = true ∨
        (payload.length = len.toNat ∧ startsWithMagic payload = false) := by
      unfold spelledPlainly
      rw [hout]
      simp
    rw [hspelled]
    constructor
    · intro h
      by_cases hlen : payload.length = len.toNat
      · by_cases hmagic : startsWithMagic payload = true
        · left
          by_cases hdirect : len ≤ 0x4b
          · rw [carriesCoveMagic_direct hout hlen hdirect, hmagic]
          · -- No payload this long decodes, so the transaction is invalid.
            have hlong : 76 ≤ payload.length := by
              have hlt := UInt8.lt_iff_toNat_lt.mp (UInt8.not_le.mp hdirect)
              rw [show (0x4b : UInt8).toNat = 75 from rfl] at hlt
              omega
            have hparse := parseCoveTx_payload hout hlen
            rw [if_pos ⟨by omega, hmagic⟩] at hparse
            cases hdecode : decodeV2 payload with
            | ok e =>
              have := (length_of_decodeV2 hdecode).2
              omega
            | error f =>
              rw [hdecode] at hparse
              exact h.invalid _ hparse
        · exact Or.inr ⟨hlen, Bool.eq_false_iff.mpr hmagic⟩
      · exact Or.inl (h.invalid _ (parseCoveTx_bad_length hout hlen))
    · intro h
      have hinvalid : ∀ reason, parseCoveTx tx = .invalid reason → carriesCoveMagic tx = true := by
        intro reason hparse
        rcases h with hmagic | ⟨hlen, hmagic⟩
        · exact hmagic
        · rw [parseCoveTx_payload hout hlen, if_neg (by simp [hmagic])] at hparse
          cases hparse
      refine ⟨fun _ => parseCoveTx_cove_iff, hinvalid, ?_⟩
      intro hcove hmagic
      cases hparse : parseCoveTx tx with
      | nonCove => rfl
      | invalid reason =>
        have := hinvalid reason hparse
        rw [hmagic] at this
        cases this
      | cove envelope => exact absurd (parseCoveTx_cove_iff.mp hparse) (hcove envelope)
  · have hnone : parseCoveTx tx = .nonCove := parseCoveTx_no_opReturn fun len payload hout =>
      hop ⟨len, payload, hout⟩
    have hspelled : spelledPlainly tx = true := by
      unfold spelledPlainly
      split
      · rename_i len payload hout
        exact absurd ⟨len, payload, hout⟩ hop
      · rfl
    refine iff_of_true ⟨fun _ => parseCoveTx_cove_iff, ?_, fun _ _ => hnone⟩ hspelled
    intro reason hparse
    rw [hnone] at hparse
    cases hparse

/-- A foreign protocol's output: `OP_RETURN`, an opcode of its own and a push. -/
def foreignTransaction : Transaction where
  ins := []
  outs := [⟨[0x6a, 0x5d, 0x03, 0x14, 0x01, 0x14], 0⟩]

theorem foreign_taken_for_invalid : ¬ ClassifiedExactly foreignTransaction := by
  intro h
  have hmagic := h.invalid "BAD_OP_RETURN_LENGTH" (by decide)
  revert hmagic
  decide

end

end Cove
