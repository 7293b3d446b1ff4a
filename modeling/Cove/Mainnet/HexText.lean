import Cove.Guardian.GuardianApi

/-! Hexadecimal texts up to case: what `Buffer.from(text, "hex")` makes of a text of digits. -/

namespace Cove

/-- The pairs of a text of digits, in small letters; an odd digit at the end is left out. -/
def wholePairs (text : Bytes) : Bytes := toLowerCase (text.take (2 * (text.length / 2)))

/-- Every character is a hexadecimal digit. -/
def AllHex (text : Bytes) : Prop := ∀ c ∈ text, (Json.hexValue c).isSome = true

theorem hexDigit_hexValue {c : UInt8} {i : Nat} (h : Json.hexValue c = some i) :
    i < 16 ∧ Bytes.hexDigit i = if 65 ≤ c ∧ c ≤ 90 then c + 32 else c := by
  have hall : ∀ n : Fin 256, ∀ i ∈ Json.hexValue (UInt8.ofNat n), i < 16 ∧
      Bytes.hexDigit i = if 65 ≤ UInt8.ofNat n ∧ UInt8.ofNat n ≤ 90 then UInt8.ofNat n + 32
        else UInt8.ofNat n := by
    decide +kernel
  have hself : UInt8.ofNat c.toNat = c := by simp
  have hc := hall ⟨c.toNat, c.toNat_lt⟩ i
  rw [hself] at hc
  exact hc h

/-- The bytes of a text of digits, spelled in small letters, are its pairs. -/
theorem hexText_bufferFromHex {text : Bytes} (h : AllHex text) :
    (bufferFromHex text).hexText = wholePairs text := by
  induction text using bufferFromHex.induct with
  | case1 x y rest i j hx hy ih =>
    obtain ⟨hi, hxdigit⟩ := hexDigit_hexValue hx
    obtain ⟨hj, hydigit⟩ := hexDigit_hexValue hy
    have hrest := ih fun c hc => h c (List.mem_cons_of_mem x (List.mem_cons_of_mem y hc))
    have hvalue : (UInt8.ofNat (i * 16 + j)).toNat = i * 16 + j := by
      rw [UInt8.toNat_ofNat']
      omega
    have hhalf : 2 * ((rest.length + 1 + 1) / 2) = 2 * (rest.length / 2) + 1 + 1 := by omega
    have hhigh : (i * 16 + j) / 16 = i := by omega
    have hlow : (i * 16 + j) % 16 = j := by omega
    rw [bufferFromHex, hx, hy]
    dsimp only
    rw [Bytes.hexText, List.flatMap_cons, ← Bytes.hexText, hrest, hvalue, hhigh, hlow, hxdigit,
      hydigit, wholePairs, wholePairs, List.length_cons, List.length_cons, hhalf,
      List.take_succ_cons, List.take_succ_cons]
    simp [toLowerCase]
  | case2 x y rest hno =>
    obtain ⟨i, hx⟩ := Option.isSome_iff_exists.mp (h x List.mem_cons_self)
    obtain ⟨j, hy⟩ := Option.isSome_iff_exists.mp
      (h y (List.mem_cons_of_mem x List.mem_cons_self))
    exact absurd hy (hno i j hx)
  | case3 text hno =>
    cases text with
    | nil => rfl
    | cons x text =>
      cases text with
      | nil => simp [bufferFromHex, Bytes.hexText, wholePairs, toLowerCase]
      | cons y rest => exact absurd rfl (hno x y rest)

/-- Two texts of digits spell the same bytes when their pairs are the same up to case. -/
theorem bufferFromHex_eq_iff {a b : Bytes} (ha : AllHex a) (hb : AllHex b) :
    bufferFromHex a = bufferFromHex b ↔ wholePairs a = wholePairs b := by
  rw [← hexText_bufferFromHex ha, ← hexText_bufferFromHex hb]
  constructor
  · intro h
    rw [h]
  · intro h
    rw [← bufferFromHex_hexText (bufferFromHex a), h, bufferFromHex_hexText]

theorem wholePairs_even {text : Bytes} (h : text.length % 2 = 0) :
    wholePairs text = toLowerCase text := by
  have hall : 2 * (text.length / 2) = text.length := by omega
  rw [wholePairs, hall, List.take_length]

theorem toLowerCase_length (text : Bytes) : (toLowerCase text).length = text.length :=
  List.length_map _

/-- Texts that are the same up to case have the same pairs. -/
theorem wholePairs_of_toLowerCase {a b : Bytes} (h : toLowerCase a = toLowerCase b) :
    wholePairs a = wholePairs b := by
  have hlength := congrArg List.length h
  rw [toLowerCase_length, toLowerCase_length] at hlength
  have htake (text : Bytes) (n : Nat) : toLowerCase (text.take n) = (toLowerCase text).take n :=
    List.map_take
  rw [wholePairs, wholePairs, htake, htake, h, hlength]

theorem hexText_length (b : Bytes) : b.hexText.length = 2 * b.length := by
  induction b with
  | nil => rfl
  | cons x b ih =>
    rw [Bytes.hexText, List.flatMap_cons, ← Bytes.hexText, List.length_append, ih]
    simp only [List.length_cons, List.length_nil]
    omega

theorem bufferFromHex_length {text : Bytes} (h : AllHex text) :
    (bufferFromHex text).length = text.length / 2 := by
  have hlength := congrArg List.length (hexText_bufferFromHex h)
  rw [hexText_length, wholePairs, toLowerCase_length, List.length_take] at hlength
  omega

theorem toLowerCase_toLowerCase (text : Bytes) :
    toLowerCase (toLowerCase text) = toLowerCase text := by
  have hall : ∀ n : Fin 256, ¬ (65 ≤ (if 65 ≤ UInt8.ofNat n ∧ UInt8.ofNat n ≤ 90 then
      UInt8.ofNat n + 32 else UInt8.ofNat n) ∧ (if 65 ≤ UInt8.ofNat n ∧ UInt8.ofNat n ≤ 90 then
        UInt8.ofNat n + 32 else UInt8.ofNat n) ≤ 90) := by
    decide +kernel
  rw [toLowerCase, toLowerCase, List.map_map]
  apply List.map_congr_left
  intro c _
  have hself : UInt8.ofNat c.toNat = c := by simp
  have hc := hall ⟨c.toNat, c.toNat_lt⟩
  rw [hself] at hc
  exact if_neg hc

/-- Whether a character is a digit does not depend on its case. -/
theorem hexValue_toLowerCase (c : UInt8) :
    (Json.hexValue (if 65 ≤ c ∧ c ≤ 90 then c + 32 else c)).isSome = (Json.hexValue c).isSome := by
  have hall : ∀ n : Fin 256, (Json.hexValue (if 65 ≤ UInt8.ofNat n ∧ UInt8.ofNat n ≤ 90 then
      UInt8.ofNat n + 32 else UInt8.ofNat n)).isSome =
        (Json.hexValue (UInt8.ofNat n)).isSome := by
    decide +kernel
  have hself : UInt8.ofNat c.toNat = c := by simp
  have hc := hall ⟨c.toNat, c.toNat_lt⟩
  rw [hself] at hc
  exact hc

theorem allHex_toLowerCase {text : Bytes} : AllHex (toLowerCase text) ↔ AllHex text := by
  simp only [AllHex, toLowerCase, List.forall_mem_map, hexValue_toLowerCase]

theorem allHex_hexText (b : Bytes) : AllHex b.hexText := by
  have hdigit : ∀ n < 16, (Json.hexValue (Bytes.hexDigit n)).isSome = true := by
    decide +kernel
  intro c hc
  obtain ⟨x, -, hx⟩ := List.mem_flatMap.mp hc
  have hbyte := x.toNat_lt
  rcases List.mem_cons.mp hx with rfl | hx
  · exact hdigit _ (by omega)
  · rw [List.mem_singleton.mp hx]
    exact hdigit _ (by omega)

/-- A text that spells the bytes in either case is read as them. -/
theorem bufferFromHex_of_toLowerCase {text b : Bytes} (h : toLowerCase text = b.hexText) :
    AllHex text ∧ bufferFromHex text = b := by
  have hall : AllHex text := by
    rw [← allHex_toLowerCase, h]
    exact allHex_hexText b
  have hlength := congrArg List.length h
  rw [toLowerCase_length, hexText_length] at hlength
  have hpairs : wholePairs text = wholePairs b.hexText := by
    rw [wholePairs_even (by omega), wholePairs_even (by rw [hexText_length]; omega), h]
    have hself := hexText_bufferFromHex (allHex_hexText b)
    rw [bufferFromHex_hexText, wholePairs_even (by rw [hexText_length]; omega)] at hself
    exact hself
  refine ⟨hall, ?_⟩
  rw [(bufferFromHex_eq_iff hall (allHex_hexText b)).mpr hpairs, bufferFromHex_hexText]

end Cove
