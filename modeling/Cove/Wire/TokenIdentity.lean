import Cove.Indexer.Chain

/-! What a token's identity is the hash of: the preimage in `packages/cove-wire/src/tokenId.ts`, and
which inputs share one. -/

namespace Cove

open Checked

def chainBitcoinMainnet : Bytes := Bytes.ascii "bitcoin-mainnet"

def chainBitcoinRegtest : Bytes := Bytes.ascii "bitcoin-regtest"

def chainBitcoinSignet : Bytes := Bytes.ascii "bitcoin-signet"

def chainBitcoinTestnet : Bytes := Bytes.ascii "bitcoin-testnet"

/-- The canonical chain identities. -/
def chainIdentities : List Bytes :=
  [chainBitcoinMainnet, chainBitcoinRegtest, chainBitcoinSignet, chainBitcoinTestnet]

namespace TokenIdentityInput

variable (input : TokenIdentityInput)

/-- The ticker in capitals. -/
def tick : Bytes := input.ticker.map toUpper

/-- The bytes `computeTokenId` hashes. -/
def preimage : Bytes :=
  input.chainIdentity ++ [UInt8.ofNat input.policyVersion] ++ input.tick ++ input.tokenNonce ++
    [UInt8.ofNat input.creatorScript.length] ++ input.creatorScript

/-- The preimage from the ticker on. -/
def tail : Bytes :=
  input.tick ++ (input.tokenNonce ++
    (UInt8.ofNat input.creatorScript.length :: input.creatorScript))

/-- What `computeTokenId` hashes is the preimage, of inputs that pass its checks. -/
theorem computeTokenId_eq_ok {C : Crypto} {input : TokenIdentityInput} {id : Bytes} :
    computeTokenId C input = .ok id ↔
      tickerShape input.ticker = true ∧ input.tokenNonce.length = 32 ∧ 1 ≤ input.policyVersion ∧
        (input.creatorScript.length ≠ 0 ∧ input.creatorScript.length ≤ 255) ∧
        id = taggedHash C "CoveToken" input.preimage := by
  simp only [computeTokenId, canonicalTicker, bind_eq_ok, ensure_eq_ok, pure_eq_ok]
  constructor
  · intro h
    obtain ⟨tick, ⟨_, hshape, rfl⟩, _, hnonce, _, hpolicy, _, hscript, hid⟩ := h
    exact ⟨hshape, hnonce, hpolicy, hscript, hid.symm⟩
  · intro h
    obtain ⟨hshape, hnonce, hpolicy, hscript, hid⟩ := h
    exact ⟨input.tick, ⟨(), hshape, rfl⟩, (), hnonce, (), hpolicy, (), hscript, hid.symm⟩

/-- An input of a canonical chain whose creator can be paid. -/
structure Canonical (C : Crypto) (input : TokenIdentityInput) : Prop where
  accepted : ∃ id, computeTokenId C input = .ok id
  chain : input.chainIdentity ∈ chainIdentities
  policy : input.policyVersion < 256
  creator : isCreatorScript input.creatorScript = true

/-- One input's preimage read as the other's: the creator of the first is paid by Taproot, and the
rest of the preimage is cut some bytes later. The second ticker takes these bytes from the first
nonce, the second nonce as many from the first script behind its length, and what remains of the
first script is the second one behind its own length. -/
structure Shifted (a b : TokenIdentityInput) : Prop where
  chain : a.chainIdentity = b.chainIdentity
  policy : a.policyVersion = b.policyVersion
  taproot : isP2TR a.creatorScript = true
  shorter : b.creatorScript.length < 34
  ticker : b.tick = a.tick ++ a.tokenNonce.take (34 - b.creatorScript.length)
  nonce : b.tokenNonce = a.tokenNonce.drop (34 - b.creatorScript.length) ++
    0x22 :: a.creatorScript.take (33 - b.creatorScript.length)
  script : a.creatorScript.drop (33 - b.creatorScript.length) =
    UInt8.ofNat b.creatorScript.length :: b.creatorScript

/-- The fields the identity is to commit to. -/
def SameIdentity (a b : TokenIdentityInput) : Prop :=
  a.chainIdentity = b.chainIdentity ∧ a.policyVersion = b.policyVersion ∧ a.tick = b.tick ∧
    a.tokenNonce = b.tokenNonce ∧ a.creatorScript = b.creatorScript

theorem creatorScript_cases {s : Bytes} (h : isCreatorScript s = true) :
    s.length = 22 ∧ s[0]? = some 0x00 ∨ s.length = 34 ∧ isP2TR s = true ∨
      s.length = 23 ∧ s[0]? = some 0xa9 := by
  simp only [isCreatorScript, isP2WPKH, isP2TR, isP2SH, Bool.or_eq_true, Bool.and_eq_true,
    decide_eq_true_eq] at h ⊢
  rcases h with (⟨⟨hlen, hfirst⟩, -⟩ | ⟨⟨hlen, hfirst⟩, hsecond⟩) | ⟨⟨⟨hlen, hfirst⟩, -⟩, -⟩
  · exact Or.inl ⟨hlen, hfirst⟩
  · exact Or.inr (Or.inl ⟨hlen, ⟨hlen, hfirst⟩, hsecond⟩)
  · exact Or.inr (Or.inr ⟨hlen, hfirst⟩)

/-- The chains differ within their first nine characters. -/
theorem chainIdentity_split {c d s t : Bytes} (hc : c ∈ chainIdentities)
    (hd : d ∈ chainIdentities) (h : c ++ s = d ++ t) : c = d ∧ s = t := by
  have hfirst : ∀ c ∈ chainIdentities, 9 ≤ c.length ∧
      ∀ d ∈ chainIdentities, c.take 9 = d.take 9 → c = d := by
    decide +kernel
  have htake := congrArg (List.take 9) h
  rw [List.take_append_of_le_length (hfirst c hc).1,
    List.take_append_of_le_length (hfirst d hd).1] at htake
  have heq := (hfirst c hc).2 d hd htake
  subst heq
  exact ⟨rfl, List.append_cancel_left h⟩

theorem preimage_eq_iff {a b : TokenIdentityInput} (hachain : a.chainIdentity ∈ chainIdentities)
    (hbchain : b.chainIdentity ∈ chainIdentities) (hapolicy : a.policyVersion < 256)
    (hbpolicy : b.policyVersion < 256) : a.preimage = b.preimage ↔
      a.chainIdentity = b.chainIdentity ∧ a.policyVersion = b.policyVersion ∧
        a.tail = b.tail := by
  have hsplit (x : TokenIdentityInput) :
      x.preimage = x.chainIdentity ++ (UInt8.ofNat x.policyVersion :: x.tail) := by
    simp [preimage, tail]
  rw [hsplit, hsplit]
  constructor
  · intro h
    obtain ⟨hchain, hrest⟩ := chainIdentity_split hachain hbchain h
    obtain ⟨hbyte, htail⟩ := List.cons.inj hrest
    have hpolicy := congrArg UInt8.toNat hbyte
    rw [UInt8.toNat_ofNat', UInt8.toNat_ofNat'] at hpolicy
    exact ⟨hchain, by omega, htail⟩
  · intro hparts
    obtain ⟨hchain, hpolicy, htail⟩ := hparts
    rw [hchain, hpolicy, htail]

/-- A shift is another input with the same preimage. -/
theorem Shifted.tail_eq {a b : TokenIdentityInput} (h : Shifted a b) : a.tail = b.tail := by
  have hlen : a.creatorScript.length = 34 := by
    have htaproot := h.taproot
    simp only [isP2TR, Bool.and_eq_true, decide_eq_true_eq] at htaproot
    exact htaproot.1.1
  have htwenty : UInt8.ofNat a.creatorScript.length = 0x22 := by
    rw [hlen]
    decide
  rw [tail, tail, h.ticker, h.nonce, ← h.script, htwenty, List.append_assoc, List.append_assoc,
    List.cons_append, List.take_append_drop, ← List.append_assoc (a.tokenNonce.take _),
    List.take_append_drop]

theorem Shifted.creator_ne {a b : TokenIdentityInput} (h : Shifted a b) :
    a.creatorScript ≠ b.creatorScript := by
  intro heq
  have htaproot := h.taproot
  have hshorter := h.shorter
  simp only [isP2TR, Bool.and_eq_true, decide_eq_true_eq] at htaproot
  rw [heq] at htaproot
  omega

/-- Where the first script is longer the parts are shifted. -/
theorem shifted_of_tail {a b : TokenIdentityInput} (hchain : a.chainIdentity = b.chainIdentity)
    (hpolicy : a.policyVersion = b.policyVersion) (ha : a.tokenNonce.length = 32)
    (hb : b.tokenNonce.length = 32) (hacreator : isCreatorScript a.creatorScript = true)
    (hbcreator : isCreatorScript b.creatorScript = true) (htail : a.tail = b.tail)
    (hlonger : b.creatorScript.length < a.creatorScript.length) : Shifted a b := by
  have hlength := congrArg List.length htail
  simp only [tail, List.length_append, List.length_cons, ha, hb] at hlength
  rcases creatorScript_cases hacreator with ⟨halen, -⟩ | ⟨halen, htaproot⟩ | ⟨halen, hafirst⟩
  · rcases creatorScript_cases hbcreator with ⟨hblen, -⟩ | ⟨hblen, -⟩ | ⟨hblen, -⟩ <;> omega
  · have htwenty : UInt8.ofNat a.creatorScript.length = 0x22 := by
      rw [halen]
      decide
    have hcut : (a.tick ++ a.tokenNonce.take (34 - b.creatorScript.length)) ++
        ((a.tokenNonce.drop (34 - b.creatorScript.length) ++
          0x22 :: a.creatorScript.take (33 - b.creatorScript.length)) ++
            a.creatorScript.drop (33 - b.creatorScript.length)) = b.tail := by
      rw [← htail, tail, htwenty, List.append_assoc, List.append_assoc, List.cons_append,
        List.take_append_drop, ← List.append_assoc (a.tokenNonce.take _), List.take_append_drop]
    have hblen : 22 ≤ b.creatorScript.length := by
      rcases creatorScript_cases hbcreator with ⟨h, -⟩ | ⟨h, -⟩ | ⟨h, -⟩ <;> omega
    rw [tail] at hcut
    obtain ⟨hticker, hrest⟩ := List.append_inj hcut (by
      rw [List.length_append, List.length_take, ha]
      omega)
    obtain ⟨hnonce, hscript⟩ := List.append_inj hrest (by
      rw [List.length_append, List.length_drop, List.length_cons, List.length_take, ha, halen, hb]
      omega)
    exact ⟨hchain, hpolicy, htaproot, by omega, hticker.symm, hnonce.symm, hscript⟩
  · -- a P2SH script starts with 0xa9, where the other length would stand
    have hblen : b.creatorScript.length = 22 := by
      rcases creatorScript_cases hbcreator with ⟨h, -⟩ | ⟨h, -⟩ | ⟨h, -⟩ <;> omega
    have hdrop := congrArg (fun l => l[a.tick.length + 33]?) htail
    have hleft : a.tail[a.tick.length + 33]? = some 0xa9 := by
      rw [tail, List.getElem?_append_right (by omega), List.getElem?_append_right (by omega), ha]
      have hindex : a.tick.length + 33 - a.tick.length - 32 = 0 + 1 := by omega
      rw [hindex, List.getElem?_cons_succ]
      exact hafirst
    have hright : b.tail[a.tick.length + 33]? = some 0x16 := by
      rw [tail, List.getElem?_append_right (by omega), List.getElem?_append_right (by omega), hb]
      have hindex : a.tick.length + 33 - b.tick.length - 32 = 0 := by omega
      rw [hindex, List.getElem?_cons_zero, hblen]
      decide
    rw [hleft, hright] at hdrop
    exact absurd hdrop (by decide)

/-- The hashed bytes tell two inputs apart exactly when neither is a shift of the other. -/
theorem preimage_unambiguous_iff {C : Crypto} {a b : TokenIdentityInput} (ha : a.Canonical C)
    (hb : b.Canonical C) : (a.preimage = b.preimage → SameIdentity a b) ↔
      ¬ Shifted a b ∧ ¬ Shifted b a := by
  obtain ⟨⟨_, haccepted⟩, hachain, hapolicy, hacreator⟩ := ha
  obtain ⟨⟨_, hbccepted⟩, hbchain, hbpolicy, hbcreator⟩ := hb
  have hanonce := (computeTokenId_eq_ok.mp haccepted).2.1
  have hbnonce := (computeTokenId_eq_ok.mp hbccepted).2.1
  rw [preimage_eq_iff hachain hbchain hapolicy hbpolicy]
  constructor
  · intro h
    constructor
    · intro hshift
      exact hshift.creator_ne (h ⟨hshift.chain, hshift.policy, hshift.tail_eq⟩).2.2.2.2
    · intro hshift
      exact hshift.creator_ne
        (h ⟨hshift.chain.symm, hshift.policy.symm, hshift.tail_eq.symm⟩).2.2.2.2.symm
  · intro hshifts hparts
    obtain ⟨hab, hba⟩ := hshifts
    obtain ⟨hchain, hpolicy, htail⟩ := hparts
    have hlength : a.creatorScript.length = b.creatorScript.length := by
      rcases lt_trichotomy a.creatorScript.length b.creatorScript.length with hlt | heq | hgt
      · exact absurd (shifted_of_tail hchain.symm hpolicy.symm hbnonce hanonce hbcreator hacreator
          htail.symm hlt) hba
      · exact heq
      · exact absurd (shifted_of_tail hchain hpolicy hanonce hbnonce hacreator hbcreator htail
          hgt) hab
    have htick := congrArg List.length htail
    simp only [tail, List.length_append, List.length_cons, hanonce, hbnonce] at htick
    rw [tail, tail] at htail
    obtain ⟨hticker, hrest⟩ := List.append_inj htail (by omega)
    obtain ⟨hnonce, hscript⟩ := List.append_inj hrest (by omega)
    exact ⟨hchain, hpolicy, hticker, hnonce, (List.cons.inj hscript).2⟩

/-! Two deploys of one identity, and two of their own. -/

/-- A Taproot creator, whose script holds a P2WPKH one, and a nonce that begins with letters. -/
def taprootInput : TokenIdentityInput where
  chainIdentity := chainBitcoinMainnet
  policyVersion := 3
  ticker := Bytes.ascii "A"
  tokenNonce := Bytes.ascii "BCDEFGHIJKLM" ++ List.replicate 20 7
  creatorScript := 0x51 :: 0x20 :: List.replicate 9 1 ++ 0x16 :: 0x00 :: 0x14 ::
    List.replicate 20 2

def shiftedInput : TokenIdentityInput where
  chainIdentity := chainBitcoinMainnet
  policyVersion := 3
  ticker := Bytes.ascii "ABCDEFGHIJKLM"
  tokenNonce := List.replicate 20 7 ++ 0x22 :: 0x51 :: 0x20 :: List.replicate 9 1
  creatorScript := 0x00 :: 0x14 :: List.replicate 20 2

/-- The same deploy with its ticker in small letters. -/
def smallInput : TokenIdentityInput :=
  { shiftedInput with ticker := Bytes.ascii "abcdefghijklm" }

theorem taprootInput_canonical : taprootInput.Canonical sampleCrypto := by
  refine ⟨⟨_, computeTokenId_eq_ok.mpr ⟨?_, ?_, ?_, ?_, rfl⟩⟩, ?_, ?_, ?_⟩ <;> decide +kernel

theorem shiftedInput_canonical : shiftedInput.Canonical sampleCrypto := by
  refine ⟨⟨_, computeTokenId_eq_ok.mpr ⟨?_, ?_, ?_, ?_, rfl⟩⟩, ?_, ?_, ?_⟩ <;> decide +kernel

theorem smallInput_canonical : smallInput.Canonical sampleCrypto := by
  refine ⟨⟨_, computeTokenId_eq_ok.mpr ⟨?_, ?_, ?_, ?_, rfl⟩⟩, ?_, ?_, ?_⟩ <;> decide +kernel

/-- One preimage, so one token id, for two tickers, nonces and creators. -/
theorem shifted_inputs_collide : taprootInput.Canonical sampleCrypto ∧
    shiftedInput.Canonical sampleCrypto ∧ taprootInput.preimage = shiftedInput.preimage ∧
      ¬ SameIdentity taprootInput shiftedInput := by
  refine ⟨taprootInput_canonical, shiftedInput_canonical, by decide +kernel, ?_⟩
  intro h
  exact absurd h.2.2.2.2 (by decide +kernel)

theorem preimage_unambiguous_small : shiftedInput.preimage = smallInput.preimage ∧
    SameIdentity shiftedInput smallInput := by
  have hsame : shiftedInput.preimage = smallInput.preimage := by decide +kernel
  refine ⟨hsame, (preimage_unambiguous_iff shiftedInput_canonical smallInput_canonical).mpr
    ⟨?_, ?_⟩ hsame⟩
  · intro h
    exact absurd h.taproot (by decide)
  · intro h
    exact absurd h.taproot (by decide)

end TokenIdentityInput

end Cove
