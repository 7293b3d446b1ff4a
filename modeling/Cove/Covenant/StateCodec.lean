import Cove.Covenant.Transition

/-! Reading a state back: `deserializeStateV2` of `packages/cove-covenant/src/stateV2.ts`. A vault's
address is derived from these bytes, so no two valid states may share them. -/

namespace Cove

open Checked

def coveStateV2Bytes : Nat := 51
def coveStateV2Version : UInt8 := 2

def deserializeStateV2 (bytes : Bytes) : Except Fault CoveStateV2 := do
  ensure (bytes.length = coveStateV2Bytes)
    ⟨none, s!"expected {coveStateV2Bytes} bytes, got {bytes.length}"⟩
  ensure (bytes.getD 0 0 = coveStateV2Version)
    ⟨none, s!"unsupported stateVersion {bytes.getD 0 0}"⟩
  return {
    stateVersion := 2
    policyVersion := (bytes.getD 1 0).toNat
    tokenId := bytes.slice 2 32
    issuedPublicSupplyAtoms := (bytes.slice 34 8).toNatBE
    backingSats := (bytes.slice 42 8).toNatBE
    curveStage := (bytes.getD 50 0).toNat }

/-- What the serializer checks. -/
structure SerializableV2 (s : CoveStateV2) : Prop where
  stateVersion : s.stateVersion = 2
  tokenId_length : s.tokenId.length = 32
  tokenId_nonzero : s.tokenId ≠ List.replicate 32 0
  supply_nonneg : 0 ≤ s.issuedPublicSupplyAtoms
  supply_le : s.issuedPublicSupplyAtoms ≤ publicSupplyAtoms
  backing_nonneg : 0 ≤ s.backingSats
  backing_le : s.backingSats ≤ u64Max

/-- The bytes of a state, field after field. -/
def stateV2Layout (s : CoveStateV2) : Bytes :=
  UInt8.ofNat s.stateVersion :: UInt8.ofNat s.policyVersion ::
    (s.tokenId ++ Bytes.ofNatBE 8 s.issuedPublicSupplyAtoms.toNat ++
      Bytes.ofNatBE 8 s.backingSats.toNat ++ [UInt8.ofNat s.curveStage])

theorem serializeStateV2_eq_ok {s : CoveStateV2} {bytes : Bytes} :
    serializeStateV2 s = .ok bytes ↔ SerializableV2 s ∧ stateV2Layout s = bytes := by
  simp only [serializeStateV2, bind_eq_ok, ensure_eq_ok, pure_eq_ok]
  constructor
  · intro h
    obtain ⟨_, hv, _, hl, _, hn, _, hs, _, hb, he⟩ := h
    exact ⟨⟨hv, hl, hn, hs.1, hs.2, hb.1, hb.2⟩, he⟩
  · intro h
    obtain ⟨h, he⟩ := h
    exact ⟨(), h.stateVersion, (), h.tokenId_length, (), h.tokenId_nonzero, (),
      ⟨h.supply_nonneg, h.supply_le⟩, (), ⟨h.backing_nonneg, h.backing_le⟩, he⟩

theorem ValidStateV2.serializable {s : CoveStateV2} (h : ValidStateV2 s) : SerializableV2 s := by
  obtain ⟨bytes, hbytes⟩ := h.serializes
  exact (serializeStateV2_eq_ok.mp hbytes).1

/-- A stage the supply implies fits its byte. -/
theorem impliedStageV2_lt {supplyAtoms : Int} {stage : Nat}
    (h : impliedStageV2 supplyAtoms = .ok stage) : stage ≤ stageCount := by
  unfold impliedStageV2 getStageForSupply at h
  split_ifs at h with _ hsold
  · exact (Except.ok.inj h).symm.le
  · have hmin := Except.ok.inj h
    omega

theorem stateV2Layout_eq (s : CoveStateV2) : stateV2Layout s =
    UInt8.ofNat s.stateVersion :: UInt8.ofNat s.policyVersion ::
      (s.tokenId ++ (Bytes.ofNatBE 8 s.issuedPublicSupplyAtoms.toNat ++
        (Bytes.ofNatBE 8 s.backingSats.toNat ++ [UInt8.ofNat s.curveStage]))) := by
  simp [stateV2Layout]

/-- An amount within 64 bits is read back from its eight bytes. -/
theorem toNatBE_amount {a : Int} (h0 : 0 ≤ a) (hmax : a ≤ u64Max) :
    ((Bytes.ofNatBE 8 a.toNat).toNatBE : Int) = a := by
  have hlt : a.toNat < 256 ^ 8 := by
    unfold u64Max at hmax
    omega
  rw [Bytes.toNatBE_ofNatBE hlt]
  omega

theorem toNat_byte {n : Nat} (h : n < 256) : (UInt8.ofNat n).toNat = n := by
  rw [UInt8.toNat_ofNat', Nat.mod_eq_of_lt h]

/-- A state whose two unchecked bytes hold is read back from its layout. -/
theorem deserialize_layout {s : CoveStateV2} (h : SerializableV2 s) (hpolicy : s.policyVersion < 256)
    (hstage : s.curveStage < 256) : deserializeStateV2 (stateV2Layout s) = .ok s := by
  have hlen := h.tokenId_length
  have hsupplyMax : s.issuedPublicSupplyAtoms ≤ u64Max := h.supply_le.trans (by decide)
  obtain ⟨supply, hsupply⟩ : ∃ b, b = Bytes.ofNatBE 8 s.issuedPublicSupplyAtoms.toNat := ⟨_, rfl⟩
  obtain ⟨backing, hbacking⟩ : ∃ b, b = Bytes.ofNatBE 8 s.backingSats.toNat := ⟨_, rfl⟩
  have hsupplyLen : supply.length = 8 := by rw [hsupply, Bytes.length_ofNatBE]
  have hbackingLen : backing.length = 8 := by rw [hbacking, Bytes.length_ofNatBE]
  have hlayout := stateV2Layout_eq s
  rw [← hsupply, ← hbacking] at hlayout
  have h2 : (stateV2Layout s).drop 2 = s.tokenId ++ (supply ++ (backing ++
      [UInt8.ofNat s.curveStage])) := by
    rw [hlayout]
    rfl
  have h34 := Bytes.drop_of_drop h2
  rw [hlen] at h34
  have h42 := Bytes.drop_of_drop h34
  rw [hsupplyLen] at h42
  have h50 := Bytes.drop_of_drop h42
  rw [hbackingLen] at h50
  have hid := Bytes.slice_of_drop h2
  rw [hlen] at hid
  have hsupplyField := Bytes.slice_of_drop h34
  rw [hsupplyLen, hsupply] at hsupplyField
  have hbackingField := Bytes.slice_of_drop h42
  rw [hbackingLen, hbacking] at hbackingField
  have hlength : (stateV2Layout s).length = coveStateV2Bytes := by
    rw [hlayout]
    simp [hlen, hsupplyLen, hbackingLen, coveStateV2Bytes]
  have hversion : (stateV2Layout s).getD 0 0 = coveStateV2Version := by
    rw [hlayout, h.stateVersion]
    rfl
  have hpolicyField : (stateV2Layout s).getD 1 0 = UInt8.ofNat s.policyVersion := by
    rw [hlayout]
    rfl
  simp only [deserializeStateV2, bind_eq_ok, ensure_eq_ok, pure_eq_ok]
  refine ⟨(), hlength, (), hversion, ?_⟩
  apply CoveStateV2.ext
  · exact h.stateVersion.symm
  · rw [hpolicyField]
    exact toNat_byte hpolicy
  · exact hid
  · exact (congrArg (fun b : Bytes => (b.toNatBE : Int)) hsupplyField).trans
      (toNatBE_amount h.supply_nonneg hsupplyMax)
  · exact (congrArg (fun b : Bytes => (b.toNatBE : Int)) hbackingField).trans
      (toNatBE_amount h.backing_nonneg h.backing_le)
  · have hstageField : (stateV2Layout s).getD 50 0 = UInt8.ofNat s.curveStage :=
      Bytes.getD_of_drop h50
    exact (congrArg UInt8.toNat hstageField).trans (toNat_byte hstage)

/-- The layout of what was read is what was read. -/
theorem layout_deserialize {bytes : Bytes} {s : CoveStateV2}
    (h : deserializeStateV2 bytes = .ok s) : stateV2Layout s = bytes := by
  simp only [deserializeStateV2, bind_eq_ok, ensure_eq_ok, pure_eq_ok] at h
  obtain ⟨_, hlength, _, hversion, rfl⟩ := h
  unfold coveStateV2Bytes at hlength
  have h0 := Bytes.drop_eq_getD_cons bytes 0 (by omega)
  have h1 := Bytes.drop_eq_getD_cons bytes 1 (by omega)
  have h2 := Bytes.drop_eq_slice_append bytes 2 32
  have h34 := Bytes.drop_eq_slice_append bytes 34 8
  have h42 := Bytes.drop_eq_slice_append bytes 42 8
  have h50 := Bytes.drop_eq_getD_cons bytes 50 (by omega)
  have h51 : bytes.drop 51 = [] := List.drop_eq_nil_of_le (by omega)
  have hfield : ∀ start, start + 8 ≤ bytes.length →
      Bytes.ofNatBE 8 (bytes.slice start 8).toNatBE = bytes.slice start 8 := by
    intro start hstart
    have hback := Bytes.ofNatBE_toNatBE (bytes.slice start 8)
    rwa [Bytes.length_slice hstart] at hback
  have hall : bytes = 2 :: bytes.getD 1 0 :: (bytes.slice 2 32 ++ (bytes.slice 34 8 ++
      (bytes.slice 42 8 ++ [bytes.getD 50 0]))) := by
    calc
      bytes = bytes.getD 0 0 :: bytes.drop 1 := h0
      _ = 2 :: bytes.getD 1 0 :: (bytes.slice 2 32 ++ (bytes.slice 34 8 ++
          (bytes.slice 42 8 ++ [bytes.getD 50 0]))) := by
        rw [h1, h2, h34, h42, h50, h51, hversion]
        rfl
  rw [stateV2Layout_eq]
  dsimp only
  rw [Int.toNat_natCast, Int.toNat_natCast, hfield 34 (by omega), hfield 42 (by omega),
    UInt8.ofNat_toNat, UInt8.ofNat_toNat]
  exact hall.symm

/-- Every valid state is read back from its bytes, so no two share them, and what is read is
written back as it stood. -/
theorem state_codec_round_trip :
    (∀ s, validateStateV2 s = .ok () →
      ∃ bytes, serializeStateV2 s = .ok bytes ∧ deserializeStateV2 bytes = .ok s) ∧
    (∀ s t bytes, validateStateV2 s = .ok () → validateStateV2 t = .ok () →
      serializeStateV2 s = .ok bytes → serializeStateV2 t = .ok bytes → s = t) ∧
    (∀ bytes s again, deserializeStateV2 bytes = .ok s → serializeStateV2 s = .ok again →
      again = bytes) := by
  have hback : ∀ s bytes, validateStateV2 s = .ok () → serializeStateV2 s = .ok bytes →
      deserializeStateV2 bytes = .ok s := by
    intro s bytes hv hs
    have hvalid := (validateStateV2_eq_ok s).mp hv
    have hpolicy := hvalid.policyVersion
    have hstage := impliedStageV2_lt hvalid.stage
    rw [← (serializeStateV2_eq_ok.mp hs).2]
    apply deserialize_layout hvalid.serializable
    · rw [hpolicy]
      decide
    · unfold stageCount at hstage
      omega
  refine ⟨?_, ?_, ?_⟩
  · intro s hv
    obtain ⟨bytes, hbytes⟩ := ((validateStateV2_eq_ok s).mp hv).serializes
    exact ⟨bytes, hbytes, hback s bytes hv hbytes⟩
  · intro s t bytes hs ht hsb htb
    exact Except.ok.inj ((hback s bytes hs hsb).symm.trans (hback t bytes ht htb))
  · intro bytes s again hd hs
    rw [← (serializeStateV2_eq_ok.mp hs).2]
    exact layout_deserialize hd

/-- A lot issued on the first stair. -/
theorem state_codec_round_trip_lot :
    ∃ bytes, serializeStateV2 ⟨2, 3, List.replicate 32 1, 100000000000, 27, 1⟩ = .ok bytes ∧
      deserializeStateV2 bytes = .ok ⟨2, 3, List.replicate 32 1, 100000000000, 27, 1⟩ :=
  state_codec_round_trip.1 _ (by decide +kernel)

end Cove
