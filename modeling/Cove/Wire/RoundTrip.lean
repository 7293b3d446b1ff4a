import Cove.Indexer.State
import Cove.Wire.Envelope

/-! The wire format has one spelling for each envelope: what the encoders write is read back, what
is read is written back, and every payload fits the output the indexer parses. -/

namespace Cove

open Checked

/-- The parameters as they come back: a ticker is read in upper case. -/
def ParsedEnvelopeV2.canonical : ParsedEnvelopeV2 → ParsedEnvelopeV2
  | .deploy policyVersion ticker tokenNonce => .deploy policyVersion (ticker.map toUpper) tokenNonce
  | e => e

/-! Fields where they were put. -/

section Fields

variable {p rest : Bytes} {offset : Nat}

theorem headerV2_eq (op : UInt8) : headerV2 op = [0x43, 0x56, 2, op] := by
  have hmagic : Bytes.ofNatBE 2 coveWireMagic = [0x43, 0x56] := by decide
  rw [headerV2, hmagic]
  rfl

theorem readHeaderV2_append (op : UInt8) (rest : Bytes) :
    readHeaderV2 (headerV2 op ++ rest) = .ok op := by
  have hmagic : (Bytes.slice (headerV2 op ++ rest) 0 2).toNatBE = coveWireMagic := by
    have hslice : Bytes.slice (headerV2 op ++ rest) 0 2 = [0x43, 0x56] := by
      rw [headerV2_eq]
      rfl
    rw [hslice]
    decide
  simp only [readHeaderV2, bind_eq_ok, ensure_eq_ok, pure_eq_ok]
  refine ⟨(), ?_, (), hmagic, (), ?_, ?_⟩
  · rw [headerV2_eq]
    simp
  · rw [headerV2_eq]
    rfl
  · rw [headerV2_eq]
    rfl

theorem readTokenId_of_drop {tokenId : Bytes} (h : p.drop offset = tokenId ++ rest)
    (hlen : tokenId.length = 32) (hne : tokenId ≠ List.replicate 32 0) :
    readTokenId p offset = .ok tokenId := by
  have hslice : Bytes.slice p offset 32 = tokenId := by
    rw [← hlen]
    exact Bytes.slice_of_drop h
  simp only [readTokenId, hslice, bind_eq_ok, ensure_eq_ok, pure_eq_ok]
  exact ⟨(), hlen, (), hne, trivial⟩

theorem readAmount_of_drop {amount : Int} (h : p.drop offset = Bytes.ofNatBE 8 amount.toNat ++ rest)
    (h0 : 0 < amount) (hmax : amount ≤ u64Max) : readAmount p offset = amount := by
  have hslice : Bytes.slice p offset 8 = Bytes.ofNatBE 8 amount.toNat := by
    have := Bytes.slice_of_drop h
    rwa [Bytes.length_ofNatBE] at this
  have hlt : amount.toNat < 256 ^ 8 := by
    unfold u64Max at hmax
    omega
  rw [readAmount, hslice, Bytes.toNatBE_ofNatBE hlt]
  omega

theorem tokenIdBuffer_eq_ok {tokenId b : Bytes} : tokenIdBuffer tokenId = .ok b ↔
    tokenId.length = 32 ∧ tokenId ≠ List.replicate 32 0 ∧ tokenId = b := by
  simp [tokenIdBuffer]

theorem amountBuf_eq_ok {amount : Int} {b : Bytes} : amountBuf amount = .ok b ↔
    0 < amount ∧ amount ≤ u64Max ∧ Bytes.ofNatBE 8 amount.toNat = b := by
  simp [amountBuf]

theorem voutBuf_eq_ok {vout : Nat} {b : Bytes} : voutBuf vout = .ok b ↔
    vout ≤ 255 ∧ [UInt8.ofNat vout] = b := by
  simp [voutBuf]

theorem toNat_ofNat_vout {vout : Nat} (h : vout ≤ 255) : (UInt8.ofNat vout).toNat = vout := by
  rw [UInt8.toNat_ofNat']
  omega

theorem length_allocationBufs {allocations : List TokenAllocation} {b : Bytes}
    (h : allocationBufs allocations = .ok b) : b.length = 9 * allocations.length := by
  induction allocations generalizing b with
  | nil =>
    simp only [allocationBufs, Except.ok.injEq] at h
    subst h
    rfl
  | cons a allocations ih =>
    simp only [allocationBufs, bind_eq_ok, pure_eq_ok, voutBuf_eq_ok, amountBuf_eq_ok] at h
    obtain ⟨_, ⟨-, rfl⟩, _, ⟨-, -, rfl⟩, rest, hrest, rfl⟩ := h
    have hlen := ih hrest
    simp only [List.length_append, List.length_cons, List.length_nil, Bytes.length_ofNatBE]
    omega

/-- The records written are the records read. -/
theorem readAllocationsLoop_of_drop {allocations : List TokenAllocation} {b : Bytes} {seen : List Nat}
    {total : Int} (h : p.drop offset = b ++ rest) (hb : allocationBufs allocations = .ok b)
    (hok : assertAllocationsLoop allocations seen total = .ok ()) :
    readAllocationsLoop p allocations.length offset seen total = .ok allocations := by
  induction allocations generalizing offset b seen total with
  | nil => rfl
  | cons a allocations ih =>
    simp only [allocationBufs, bind_eq_ok, pure_eq_ok, voutBuf_eq_ok, amountBuf_eq_ok] at hb
    obtain ⟨_, ⟨hvout, rfl⟩, _, ⟨hpos, hmax, rfl⟩, rest', hrest, rfl⟩ := hb
    simp only [assertAllocationsLoop, bind_eq_ok, ensure_eq_ok] at hok
    obtain ⟨_, hseen, _, -, _, htotal, hok⟩ := hok
    have h0 : p.drop offset = UInt8.ofNat a.vout ::
        (Bytes.ofNatBE 8 a.amount.toNat ++ (rest' ++ rest)) := by
      rw [h]
      simp
    have h1 : p.drop (offset + 1) = Bytes.ofNatBE 8 a.amount.toNat ++ (rest' ++ rest) :=
      Bytes.drop_succ_of_drop h0
    have h9 : p.drop (offset + 9) = rest' ++ rest := by
      have := Bytes.drop_of_drop h1
      rwa [Bytes.length_ofNatBE] at this
    have hv : (p.getD offset 0).toNat = a.vout := by
      rw [Bytes.getD_of_drop h0, toNat_ofNat_vout hvout]
    have ha : readAmount p (offset + 1) = a.amount := readAmount_of_drop h1 hpos hmax
    simp only [List.length_cons, readAllocationsLoop, hv, ha, bind_eq_ok, ensure_eq_ok, pure_eq_ok]
    exact ⟨(), by omega, (), hseen, (), htotal, allocations, ih h9 hrest hok, rfl⟩

end Fields

/-! Decoding what was encoded. -/

theorem canonicalTicker_eq_ok {ticker t : Bytes} : canonicalTicker ticker = .ok t ↔
    tickerShape ticker ∧ ticker.map toUpper = t := by
  simp [canonicalTicker]

/-- A fact about bytes that holds of the 256 of them. -/
theorem forall_byte {P : UInt8 → Prop} (h : ∀ n < 256, P (UInt8.ofNat n)) (c : UInt8) : P c := by
  have hc := h c.toNat c.toNat_lt
  rwa [UInt8.ofNat_toNat] at hc

theorem isLetter_toUpper {c : UInt8} (h : isLetter c) : isLetter (toUpper c) :=
  forall_byte (P := fun c => isLetter c → isLetter (toUpper c)) (by decide +kernel) c h

theorem alnum_toUpper {c : UInt8} (h : isLetter c || isDigit c) :
    isLetter (toUpper c) || isDigit (toUpper c) :=
  forall_byte (P := fun c => isLetter c || isDigit c →
    isLetter (toUpper c) || isDigit (toUpper c)) (by decide +kernel) c h

theorem toUpper_toUpper (c : UInt8) : toUpper (toUpper c) = toUpper c :=
  forall_byte (P := fun c => toUpper (toUpper c) = toUpper c) (by decide +kernel) c

/-- An upper-case ticker is a ticker. -/
theorem tickerShape_upper {ticker : Bytes} (h : tickerShape ticker) :
    tickerShape (ticker.map toUpper) := by
  cases ticker with
  | nil => exact h
  | cons c cs =>
    simp only [tickerShape, Bool.and_eq_true, decide_eq_true_eq, List.all_eq_true, List.map_cons,
      List.length_map, List.mem_map, forall_exists_index, and_imp, forall_apply_eq_imp_iff₂] at h ⊢
    exact ⟨⟨isLetter_toUpper h.1.1, fun d hd => alnum_toUpper (h.1.2 d hd)⟩, h.2⟩

theorem length_of_tickerShape {ticker : Bytes} (h : tickerShape ticker) :
    ticker.length ≠ 0 ∧ ticker.length ≤ 16 := by
  cases ticker with
  | nil => cases h
  | cons c cs =>
    simp only [tickerShape, Bool.and_eq_true, decide_eq_true_eq] at h
    simp only [List.length_cons]
    omega

theorem canonicalTicker_upper {ticker : Bytes} (h : tickerShape ticker) :
    canonicalTicker (ticker.map toUpper) = .ok (ticker.map toUpper) := by
  rw [canonicalTicker_eq_ok]
  refine ⟨tickerShape_upper h, ?_⟩
  rw [List.map_map]
  apply List.map_congr_left
  intro c _
  exact toUpper_toUpper c

theorem decodeV2_append (op : UInt8) (rest : Bytes) :
    decodeV2 (headerV2 op ++ rest) =
      if op = opDeploy then decodeDeploy (headerV2 op ++ rest)
      else if op = opMint then decodeMint (headerV2 op ++ rest)
      else if op = opTransfer then decodeTransfer (headerV2 op ++ rest)
      else if op = opRedeem then decodeRedeem (headerV2 op ++ rest)
      else throw (wireFault "BAD_OPCODE"
        ("unknown op 0x" ++ String.ofList (Nat.toDigits 16 op.toNat))) := by
  rw [decodeV2, readHeaderV2_append]
  rfl

theorem drop_header (op : UInt8) (rest : Bytes) : (headerV2 op ++ rest).drop 4 = rest := by
  rw [headerV2_eq]
  rfl

theorem length_header (op : UInt8) : (headerV2 op).length = 4 := by
  rw [headerV2_eq]
  rfl

/-! The lengths of the four envelopes. -/

theorem length_encodeDeployV2 {policyVersion : Nat} {ticker tokenNonce b : Bytes}
    (h : encodeDeployV2 policyVersion ticker tokenNonce = .ok b) :
    b.length = 38 + ticker.length ∧ ticker.length ≤ 16 := by
  simp only [encodeDeployV2, bind_eq_ok, ensure_eq_ok, pure_eq_ok, canonicalTicker_eq_ok] at h
  obtain ⟨_, -, _, hnonce, tick, ⟨hshape, rfl⟩, rfl⟩ := h
  refine ⟨?_, (length_of_tickerShape hshape).2⟩
  simp only [List.length_append, length_header, List.length_cons, List.length_nil, List.length_map,
    hnonce]
  omega

theorem length_encodeMintV2 {tokenId b : Bytes} {amount : Int} {recipientVout : Nat}
    (h : encodeMintV2 tokenId amount recipientVout = .ok b) : b.length = 45 := by
  simp only [encodeMintV2, bind_eq_ok, pure_eq_ok, tokenIdBuffer_eq_ok, amountBuf_eq_ok,
    voutBuf_eq_ok] at h
  obtain ⟨_, ⟨hlen, -, rfl⟩, _, ⟨-, -, rfl⟩, _, ⟨-, rfl⟩, rfl⟩ := h
  simp [length_header, hlen]

theorem length_encodeTransferV2 {tokenId b : Bytes} {allocations : List TokenAllocation}
    (h : encodeTransferV2 tokenId allocations = .ok b) :
    b.length = 37 + 9 * allocations.length := by
  simp only [encodeTransferV2, bind_eq_ok, pure_eq_ok, tokenIdBuffer_eq_ok] at h
  obtain ⟨_, -, _, ⟨hlen, -, rfl⟩, parts, hparts, rfl⟩ := h
  simp only [List.length_append, length_header, hlen, List.length_cons, List.length_nil,
    length_allocationBufs hparts]

theorem length_encodeRedeemV2 {tokenId b : Bytes} {redeemAmount : Int}
    {changeAllocations : List TokenAllocation}
    (h : encodeRedeemV2 tokenId redeemAmount changeAllocations = .ok b) :
    b.length = 45 + 9 * changeAllocations.length := by
  simp only [encodeRedeemV2, bind_eq_ok, pure_eq_ok, tokenIdBuffer_eq_ok, amountBuf_eq_ok] at h
  obtain ⟨_, -, _, ⟨hlen, -, rfl⟩, _, ⟨-, -, rfl⟩, parts, hparts, rfl⟩ := h
  simp only [List.length_append, length_header, hlen, List.length_cons, List.length_nil,
    Bytes.length_ofNatBE, length_allocationBufs hparts]

/-! What is written is read back. -/

theorem decode_encodeDeployV2 {policyVersion : Nat} {ticker tokenNonce b : Bytes}
    (h : encodeDeployV2 policyVersion ticker tokenNonce = .ok b) :
    decodeV2 b = .ok (.deploy policyVersion (ticker.map toUpper) tokenNonce) := by
  have hlength : b.length = 38 + (ticker.map toUpper).length := by
    rw [List.length_map]
    exact (length_encodeDeployV2 h).1
  simp only [encodeDeployV2, bind_eq_ok, ensure_eq_ok, pure_eq_ok, canonicalTicker_eq_ok] at h
  obtain ⟨_, rfl, _, hnonce, tick, ⟨hshape, rfl⟩, rfl⟩ := h
  have hlen := length_of_tickerShape (tickerShape_upper hshape)
  have hcanon := canonicalTicker_upper hshape
  revert hlength hlen hcanon
  generalize ticker.map toUpper = tick
  intro hlength hlen hcanon
  rw [List.append_assoc, List.append_assoc] at hlength ⊢
  rw [decodeV2_append, if_pos rfl]
  have h4 := drop_header opDeploy ([UInt8.ofNat 3, UInt8.ofNat tick.length] ++ (tick ++ tokenNonce))
  revert hlength h4
  generalize headerV2 opDeploy ++ ([UInt8.ofNat 3, UInt8.ofNat tick.length] ++
    (tick ++ tokenNonce)) = p
  intro hlength h4
  have h5 : p.drop 5 = UInt8.ofNat tick.length :: (tick ++ tokenNonce) :=
    Bytes.drop_succ_of_drop h4
  have h6 : p.drop 6 = tick ++ tokenNonce :=
    Bytes.drop_succ_of_drop h5
  have hn : p.drop (6 + tick.length) = tokenNonce ++ [] := by
    rw [List.append_nil]
    exact Bytes.drop_of_drop h6
  have hversion : p.getD 4 0 = 3 := Bytes.getD_of_drop h4
  have htick : (p.getD 5 0).toNat = tick.length := by
    rw [Bytes.getD_of_drop h5, toNat_ofNat_vout (by omega)]
  have hnslice : Bytes.slice p (6 + tick.length) 32 = tokenNonce := by
    rw [← hnonce]
    exact Bytes.slice_of_drop hn
  simp only [decodeDeploy, hversion, htick, Bytes.slice_of_drop h6, hnslice, hcanon, hlength,
    bind_eq_ok, ensure_eq_ok, pure_eq_ok]
  exact ⟨(), by omega, (), by decide, (), hlen, (), by omega, tick, rfl, (), rfl, rfl⟩

theorem decode_encodeMintV2 {tokenId b : Bytes} {amount : Int} {recipientVout : Nat}
    (h : encodeMintV2 tokenId amount recipientVout = .ok b) :
    decodeV2 b = .ok (.mint tokenId amount recipientVout) := by
  have hlength := length_encodeMintV2 h
  simp only [encodeMintV2, bind_eq_ok, pure_eq_ok, tokenIdBuffer_eq_ok, amountBuf_eq_ok,
    voutBuf_eq_ok] at h
  obtain ⟨_, ⟨hlen, hne, rfl⟩, _, ⟨hpos, hmax, rfl⟩, _, ⟨hvout, rfl⟩, rfl⟩ := h
  rw [List.append_assoc, List.append_assoc] at hlength ⊢
  rw [decodeV2_append, if_neg (by decide), if_pos rfl]
  have h4 := drop_header opMint (tokenId ++ (Bytes.ofNatBE 8 amount.toNat ++
    [UInt8.ofNat recipientVout]))
  revert hlength h4
  generalize headerV2 opMint ++ (tokenId ++ (Bytes.ofNatBE 8 amount.toNat ++
    [UInt8.ofNat recipientVout])) = p
  intro hlength h4
  have h36 : p.drop 36 = Bytes.ofNatBE 8 amount.toNat ++ [UInt8.ofNat recipientVout] := by
    have := Bytes.drop_of_drop h4
    rwa [hlen] at this
  have h44 : p.drop 44 = [UInt8.ofNat recipientVout] := by
    have := Bytes.drop_of_drop h36
    rwa [Bytes.length_ofNatBE] at this
  simp only [decodeMint, hlength, readTokenId_of_drop h4 hlen hne, readAmount_of_drop h36 hpos hmax,
    Bytes.getD_of_drop h44, toNat_ofNat_vout hvout, bind_eq_ok, ensure_eq_ok, pure_eq_ok]
  exact ⟨(), trivial, tokenId, rfl, (), by omega, rfl⟩

theorem decode_encodeTransferV2 {tokenId b : Bytes} {allocations : List TokenAllocation}
    (h : encodeTransferV2 tokenId allocations = .ok b) :
    decodeV2 b = .ok (.transfer tokenId allocations) := by
  have hlength := length_encodeTransferV2 h
  simp only [encodeTransferV2, assertAllocations, bind_eq_ok, ensure_eq_ok, pure_eq_ok,
    tokenIdBuffer_eq_ok] at h
  obtain ⟨_, ⟨_, hmin, _, hcount, hok⟩, _, ⟨hlen, hne, rfl⟩, parts, hparts, rfl⟩ := h
  rw [List.append_assoc, List.append_assoc] at hlength ⊢
  rw [decodeV2_append, if_neg (by decide), if_neg (by decide), if_pos rfl]
  have h4 := drop_header opTransfer (tokenId ++ ([UInt8.ofNat allocations.length] ++ parts))
  revert hlength h4
  generalize headerV2 opTransfer ++ (tokenId ++ ([UInt8.ofNat allocations.length] ++ parts)) = p
  intro hlength h4
  have h36 : p.drop 36 = UInt8.ofNat allocations.length :: parts := by
    have := Bytes.drop_of_drop h4
    rwa [hlen] at this
  have h37 : p.drop 37 = parts ++ [] := by
    rw [List.append_nil]
    exact Bytes.drop_succ_of_drop h36
  have hfour : maxTransferAllocations = 4 := rfl
  have hn : (p.getD 36 0).toNat = allocations.length := by
    rw [Bytes.getD_of_drop h36, toNat_ofNat_vout (by omega)]
  simp only [decodeTransfer, readAllocations, hlength, hn,
    readTokenId_of_drop h4 hlen hne, readAllocationsLoop_of_drop h37 hparts hok, bind_eq_ok,
    ensure_eq_ok, pure_eq_ok]
  exact ⟨(), by omega, tokenId, rfl, (), by omega, (), by omega, allocations, ⟨(), hcount, rfl⟩, rfl⟩

theorem decode_encodeRedeemV2 {tokenId b : Bytes} {redeemAmount : Int}
    {changeAllocations : List TokenAllocation}
    (h : encodeRedeemV2 tokenId redeemAmount changeAllocations = .ok b) :
    decodeV2 b = .ok (.redeem tokenId redeemAmount changeAllocations) := by
  have hlength := length_encodeRedeemV2 h
  simp only [encodeRedeemV2, assertAllocations, bind_eq_ok, ensure_eq_ok, pure_eq_ok,
    tokenIdBuffer_eq_ok, amountBuf_eq_ok] at h
  obtain ⟨_, ⟨_, -, _, hcount, hok⟩, _, ⟨hlen, hne, rfl⟩, _, ⟨hpos, hmax, rfl⟩, parts, hparts,
    rfl⟩ := h
  rw [List.append_assoc, List.append_assoc, List.append_assoc] at hlength ⊢
  rw [decodeV2_append, if_neg (by decide), if_neg (by decide), if_neg (by decide), if_pos rfl]
  have h4 := drop_header opRedeem (tokenId ++ (Bytes.ofNatBE 8 redeemAmount.toNat ++
    ([UInt8.ofNat changeAllocations.length] ++ parts)))
  revert hlength h4
  generalize headerV2 opRedeem ++ (tokenId ++ (Bytes.ofNatBE 8 redeemAmount.toNat ++
    ([UInt8.ofNat changeAllocations.length] ++ parts))) = p
  intro hlength h4
  have h36 : p.drop 36 = Bytes.ofNatBE 8 redeemAmount.toNat ++
      (UInt8.ofNat changeAllocations.length :: parts) := by
    have := Bytes.drop_of_drop h4
    rwa [hlen] at this
  have h44 : p.drop 44 = UInt8.ofNat changeAllocations.length :: parts := by
    have := Bytes.drop_of_drop h36
    rwa [Bytes.length_ofNatBE] at this
  have h45 : p.drop 45 = parts ++ [] := by
    rw [List.append_nil]
    exact Bytes.drop_succ_of_drop h44
  have hthree : maxRedeemAllocations = 3 := rfl
  have hn : (p.getD 44 0).toNat = changeAllocations.length := by
    rw [Bytes.getD_of_drop h44, toNat_ofNat_vout (by omega)]
  simp only [decodeRedeem, readAllocations, hlength, hn,
    readTokenId_of_drop h4 hlen hne, readAmount_of_drop h36 hpos hmax,
    readAllocationsLoop_of_drop h45 hparts hok, bind_eq_ok, ensure_eq_ok, pure_eq_ok]
  exact ⟨(), by omega, tokenId, rfl, (), by omega, (), by omega, changeAllocations,
    ⟨(), hcount, rfl⟩, rfl⟩

theorem decode_reencodeV2 {e : ParsedEnvelopeV2} {b : Bytes} (h : reencodeV2 e = .ok b) :
    decodeV2 b = .ok e.canonical := by
  cases e with
  | deploy policyVersion ticker tokenNonce => exact decode_encodeDeployV2 h
  | mint tokenId amount recipientVout => exact decode_encodeMintV2 h
  | transfer tokenId allocations => exact decode_encodeTransferV2 h
  | redeem tokenId redeemAmount changeAllocations => exact decode_encodeRedeemV2 h

/-! Encoding what was decoded. -/

section Canonical

variable {p : Bytes}

theorem readHeaderV2_eq_ok {op : UInt8} (h : readHeaderV2 p = .ok op) :
    p = headerV2 op ++ p.drop 4 := by
  simp only [readHeaderV2, bind_eq_ok, ensure_eq_ok, pure_eq_ok] at h
  obtain ⟨_, hlen, _, hmagic, _, hversion, hop⟩ := h
  have hslice : Bytes.slice p 0 2 = Bytes.ofNatBE 2 coveWireMagic := by
    have hback := Bytes.ofNatBE_toNatBE (Bytes.slice p 0 2)
    rw [Bytes.length_slice (by omega), hmagic] at hback
    exact hback.symm
  have h0 : p = Bytes.slice p 0 2 ++ p.drop 2 := Bytes.drop_eq_slice_append p 0 2
  have h2 := Bytes.drop_eq_getD_cons p 2 (by omega)
  have h3 := Bytes.drop_eq_getD_cons p 3 (by omega)
  rw [h3, hop] at h2
  rw [h2, hversion, hslice] at h0
  rw [headerV2, List.append_assoc]
  exact h0

theorem readTokenId_eq_ok {offset : Nat} {tokenId : Bytes} (h : readTokenId p offset = .ok tokenId) :
    tokenIdBuffer tokenId = .ok tokenId ∧ p.drop offset = tokenId ++ p.drop (offset + 32) := by
  simp only [readTokenId, bind_eq_ok, ensure_eq_ok, pure_eq_ok] at h
  obtain ⟨_, hlen, _, hne, rfl⟩ := h
  exact ⟨tokenIdBuffer_eq_ok.mpr ⟨hlen, hne, rfl⟩, Bytes.drop_eq_slice_append p offset 32⟩

theorem amountBuf_readAmount (offset : Nat) (hlen : offset + 8 ≤ p.length)
    (hne : readAmount p offset ≠ 0) :
    amountBuf (readAmount p offset) = .ok (Bytes.slice p offset 8) := by
  have hslice := Bytes.length_slice hlen
  have hlt := Bytes.toNatBE_lt (Bytes.slice p offset 8)
  have hback := Bytes.ofNatBE_toNatBE (Bytes.slice p offset 8)
  rw [hslice] at hlt hback
  rw [amountBuf_eq_ok]
  refine ⟨readAmount_pos hne, ?_, ?_⟩
  · unfold readAmount u64Max
    omega
  · rw [readAmount, Int.toNat_natCast]
    exact hback

theorem voutBuf_byte (x : UInt8) : voutBuf x.toNat = .ok [x] := by
  rw [voutBuf_eq_ok, UInt8.ofNat_toNat]
  have := x.toNat_lt
  exact ⟨by omega, rfl⟩

theorem readAllocationsLoop_bufs {n offset : Nat} {seen : List Nat} {total : Int}
    {l : List TokenAllocation} (h : readAllocationsLoop p n offset seen total = .ok l)
    (hlen : offset + 9 * n ≤ p.length) :
    l.length = n ∧ assertAllocationsLoop l seen total = .ok () ∧
      ∃ b, allocationBufs l = .ok b ∧ p.drop offset = b ++ p.drop (offset + 9 * n) := by
  induction n generalizing offset seen total l with
  | zero =>
    simp only [readAllocationsLoop, Except.ok.injEq] at h
    subst h
    exact ⟨rfl, rfl, [], rfl, rfl⟩
  | succ n ih =>
    simp only [readAllocationsLoop, bind_eq_ok, ensure_eq_ok, pure_eq_ok] at h
    obtain ⟨_, hne, _, hseen, _, htotal, rest, hrest, rfl⟩ := h
    obtain ⟨hcount, hok, b, hb, hdrop⟩ := ih hrest (by omega)
    have hamount := amountBuf_readAmount (offset + 1) (by omega) hne
    have h0 := Bytes.drop_eq_getD_cons p offset (by omega)
    have h1 := Bytes.drop_eq_slice_append p (offset + 1) 8
    refine ⟨by simp [hcount], ?_, ?_⟩
    · simp only [assertAllocationsLoop, bind_eq_ok, ensure_eq_ok]
      exact ⟨(), hseen, (), readAmount_pos hne, (), htotal, hok⟩
    · refine ⟨[p.getD offset 0] ++ Bytes.slice p (offset + 1) 8 ++ b, ?_, ?_⟩
      · simp only [allocationBufs, voutBuf_byte, hamount, hb, bind_eq_ok, pure_eq_ok]
        exact ⟨_, rfl, _, rfl, _, rfl, rfl⟩
      · rw [show offset + 1 + 8 = offset + 9 by omega, hdrop] at h1
        rw [h0, h1, show offset + 9 * (n + 1) = offset + 9 + 9 * n by omega]
        simp

theorem encode_decodeDeploy (hhead : readHeaderV2 p = .ok opDeploy) {e : ParsedEnvelopeV2}
    (h : decodeDeploy p = .ok e) : reencodeV2 e = .ok p := by
  simp only [decodeDeploy, bind_eq_ok, ensure_eq_ok, pure_eq_ok] at h
  obtain ⟨_, hlen, _, hversion, _, htick, _, hlength, canonical, hcanon, _, heq, rfl⟩ := h
  have hnonce : (Bytes.slice p (6 + (p.getD 5 0).toNat) 32).length = 32 :=
    Bytes.length_slice (by omega)
  have hticklen : (Bytes.slice p 6 (p.getD 5 0).toNat).length = (p.getD 5 0).toNat :=
    Bytes.length_slice (by omega)
  have h0 := readHeaderV2_eq_ok hhead
  have h4 := Bytes.drop_eq_getD_cons p 4 (by omega)
  have h5 := Bytes.drop_eq_getD_cons p 5 (by omega)
  have h6 := Bytes.drop_eq_slice_append p 6 (p.getD 5 0).toNat
  have h7 := Bytes.drop_eq_slice_append p (6 + (p.getD 5 0).toNat) 32
  have hend : p.drop (6 + (p.getD 5 0).toNat + 32) = [] := List.drop_eq_nil_of_le (by omega)
  rw [← heq] at hcanon
  simp only [reencodeV2, encodeDeployV2, hcanon, hnonce, hversion, bind_eq_ok,
    ensure_eq_ok, pure_eq_ok]
  refine ⟨(), trivial, (), trivial, _, rfl, ?_⟩
  rw [hticklen, UInt8.ofNat_toNat]
  rw [hend, List.append_nil] at h7
  rw [h7] at h6
  rw [h6] at h5
  have hthree : UInt8.ofNat 3 = p.getD 4 0 := by
    rw [← hversion, UInt8.ofNat_toNat]
  rw [hthree]
  rw [h5] at h4
  rw [h4] at h0
  rw [List.append_assoc, List.append_assoc]
  exact h0.symm

theorem encode_decodeMint (hhead : readHeaderV2 p = .ok opMint) {e : ParsedEnvelopeV2}
    (h : decodeMint p = .ok e) : reencodeV2 e = .ok p := by
  simp only [decodeMint, bind_eq_ok, ensure_eq_ok, pure_eq_ok] at h
  obtain ⟨_, hlength, tokenId, hid, _, hne, rfl⟩ := h
  obtain ⟨hbuf, h4⟩ := readTokenId_eq_ok hid
  have hamount := amountBuf_readAmount 36 (by omega) hne
  have h0 := readHeaderV2_eq_ok hhead
  have h36 := Bytes.drop_eq_slice_append p 36 8
  have h44 := Bytes.drop_eq_getD_cons p 44 (by omega)
  have hend : p.drop 45 = [] := List.drop_eq_nil_of_le (by omega)
  simp only [reencodeV2, encodeMintV2, hbuf, hamount, voutBuf_byte, bind_eq_ok, pure_eq_ok]
  refine ⟨_, rfl, _, rfl, _, rfl, ?_⟩
  rw [hend] at h44
  rw [h44] at h36
  rw [h36] at h4
  rw [h4] at h0
  rw [List.append_assoc, List.append_assoc]
  exact h0.symm

theorem encode_decodeTransfer (hhead : readHeaderV2 p = .ok opTransfer) {e : ParsedEnvelopeV2}
    (h : decodeTransfer p = .ok e) : reencodeV2 e = .ok p := by
  simp only [decodeTransfer, readAllocations, bind_eq_ok, ensure_eq_ok, pure_eq_ok] at h
  obtain ⟨_, hlen, tokenId, hid, _, hzero, _, hlength, l, ⟨_, hmax, hl⟩, rfl⟩ := h
  obtain ⟨hbuf, h4⟩ := readTokenId_eq_ok hid
  obtain ⟨hcount, hok, b, hb, h37⟩ := readAllocationsLoop_bufs hl (by omega)
  have h0 := readHeaderV2_eq_ok hhead
  have h36 := Bytes.drop_eq_getD_cons p 36 (by omega)
  have hend : p.drop (37 + 9 * (p.getD 36 0).toNat) = [] := List.drop_eq_nil_of_le (by omega)
  simp only [reencodeV2, encodeTransferV2, assertAllocations, hbuf, hb, hok, hcount, bind_eq_ok,
    ensure_eq_ok, pure_eq_ok]
  refine ⟨(), ⟨(), by omega, (), hmax, trivial⟩, _, rfl, _, rfl, ?_⟩
  rw [UInt8.ofNat_toNat]
  rw [hend, List.append_nil] at h37
  rw [h37] at h36
  rw [h36] at h4
  rw [h4] at h0
  rw [List.append_assoc, List.append_assoc]
  exact h0.symm

theorem encode_decodeRedeem (hhead : readHeaderV2 p = .ok opRedeem) {e : ParsedEnvelopeV2}
    (h : decodeRedeem p = .ok e) : reencodeV2 e = .ok p := by
  simp only [decodeRedeem, readAllocations, bind_eq_ok, ensure_eq_ok, pure_eq_ok] at h
  obtain ⟨_, hlen, tokenId, hid, _, hne, _, hlength, l, ⟨_, hmax, hl⟩, rfl⟩ := h
  obtain ⟨hbuf, h4⟩ := readTokenId_eq_ok hid
  obtain ⟨hcount, hok, b, hb, h45⟩ := readAllocationsLoop_bufs hl (by omega)
  have hamount := amountBuf_readAmount 36 (by omega) hne
  have h0 := readHeaderV2_eq_ok hhead
  have h36 := Bytes.drop_eq_slice_append p 36 8
  have h44 := Bytes.drop_eq_getD_cons p 44 (by omega)
  have hend : p.drop (45 + 9 * (p.getD 44 0).toNat) = [] := List.drop_eq_nil_of_le (by omega)
  simp only [reencodeV2, encodeRedeemV2, assertAllocations, hbuf, hamount, hb, hok, hcount,
    bind_eq_ok, ensure_eq_ok, pure_eq_ok]
  refine ⟨(), ⟨(), by omega, (), hmax, trivial⟩, _, rfl, _, rfl, _, rfl, ?_⟩
  rw [UInt8.ofNat_toNat]
  rw [hend, List.append_nil] at h45
  rw [h45] at h44
  rw [h44] at h36
  rw [h36] at h4
  rw [h4] at h0
  rw [List.append_assoc, List.append_assoc, List.append_assoc]
  exact h0.symm

theorem reencode_decodeV2 {e : ParsedEnvelopeV2} (h : decodeV2 p = .ok e) : reencodeV2 e = .ok p := by
  simp only [decodeV2, bind_eq_ok] at h
  obtain ⟨op, hhead, h⟩ := h
  split_ifs at h with hdeploy hmint htransfer hredeem
  · exact encode_decodeDeploy (hdeploy ▸ hhead) h
  · exact encode_decodeMint (hmint ▸ hhead) h
  · exact encode_decodeTransfer (htransfer ▸ hhead) h
  · exact encode_decodeRedeem (hredeem ▸ hhead) h

/-- The longest payload is a transfer with four allocations. -/
theorem length_of_decodeV2 {e : ParsedEnvelopeV2} (h : decodeV2 p = .ok e) :
    4 ≤ p.length ∧ p.length ≤ 75 := by
  simp only [decodeV2, bind_eq_ok] at h
  obtain ⟨op, hhead, h⟩ := h
  split_ifs at h with hdeploy hmint htransfer hredeem
  · simp only [decodeDeploy, bind_eq_ok, ensure_eq_ok] at h
    obtain ⟨_, hlen, _, -, _, htick, _, hlength, -⟩ := h
    omega
  · simp only [decodeMint, bind_eq_ok, ensure_eq_ok] at h
    obtain ⟨_, hlength, -⟩ := h
    omega
  · simp only [decodeTransfer, readAllocations, bind_eq_ok, ensure_eq_ok] at h
    obtain ⟨_, hlen, _, -, _, -, _, hlength, _, ⟨_, hmax, -⟩, -⟩ := h
    unfold maxTransferAllocations at hmax
    omega
  · simp only [decodeRedeem, readAllocations, bind_eq_ok, ensure_eq_ok] at h
    obtain ⟨_, hlen, _, -, _, -, _, hlength, _, ⟨_, hmax, -⟩, -⟩ := h
    unfold maxRedeemAllocations at hmax
    omega

/-- The indexer reads the payload from the output a builder puts it in. -/
theorem parseCoveTx_opReturn {e : ParsedEnvelopeV2} (h : decodeV2 p = .ok e) {tx : Transaction}
    {out : TxOut} (hout : tx.outs[0]? = some out)
    (hscript : out.script = 0x6a :: UInt8.ofNat p.length :: p) : parseCoveTx tx = .cove e := by
  have hlen := length_of_decodeV2 h
  apply parseCoveTx_eq_cove.mpr
  refine ⟨out, hout, ?_, ?_, ?_⟩
  · rw [hscript]
    rfl
  · rw [hscript]
    simp only [List.getD_cons_succ, List.getD_cons_zero, List.length_cons, UInt8.toNat_ofNat']
    omega
  · rw [hscript]
    exact h

end Canonical

/-- The wire format is a bijection on its image: the encoders' payloads decode to their canonical
parameters, and an accepted payload is the one encoding of its envelope and fits one direct
push, from which the indexer reads it. -/
theorem wire_bijective :
    (∀ e b, reencodeV2 e = .ok b → decodeV2 b = .ok e.canonical) ∧
    ∀ b e, decodeV2 b = .ok e → reencodeV2 e = .ok b ∧ b.length ≤ 75 ∧
      ∀ tx out, tx.outs[0]? = some out → out.script = 0x6a :: UInt8.ofNat b.length :: b →
        parseCoveTx tx = .cove e := by
  refine ⟨fun e b h => decode_reencodeV2 h, fun b e h => ⟨reencode_decodeV2 h, ?_, ?_⟩⟩
  · exact (length_of_decodeV2 h).2
  · intro tx out hout hscript
    exact parseCoveTx_opReturn h hout hscript

end Cove
