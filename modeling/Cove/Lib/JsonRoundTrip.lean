import Cove.Lib.Json
import Mathlib.Tactic.Ring
import Mathlib.Tactic.Linarith

/-! Parsing what `stringify` writes gives the value back. -/

namespace Json

/-- A text that needs no escapes. -/
def PlainText (s : Bytes) : Prop := ∀ c ∈ s, c ≠ 0x22 ∧ c ≠ 0x5c ∧ ¬ c < 0x20

mutual

/-- Strings and names need no escapes, and numbers are natural. -/
def Plain : Json → Prop
  | .num mantissa exponent => 0 ≤ mantissa ∧ exponent = 0
  | .str s => PlainText s
  | .arr items => PlainItems items
  | .obj members => PlainMembers members
  | _ => True

def PlainItems : List Json → Prop
  | [] => True
  | v :: vs => Plain v ∧ PlainItems vs

def PlainMembers : List (Bytes × Json) → Prop
  | [] => True
  | (name, v) :: ms => PlainText name ∧ Plain v ∧ PlainMembers ms

end

/-- What may come after a number. -/
def Closes : Bytes → Prop
  | [] => True
  | c :: _ => isDecimal c = false ∧ c ≠ 0x2e ∧ c ≠ 0x65 ∧ c ≠ 0x45

theorem stringBody_plain {s : Bytes} (hs : PlainText s) (rest : Bytes) :
    stringBody (s ++ 0x22 :: rest) = some (s, rest) := by
  induction s with
  | nil =>
    rw [List.nil_append, stringBody.eq_def]
    rfl
  | cons c s ih =>
    obtain ⟨hq, hb, hl⟩ := hs c List.mem_cons_self
    have ih' := ih fun d hd => hs d (List.mem_cons_of_mem _ hd)
    rw [List.cons_append, stringBody.eq_def]
    simp only [if_neg hq, if_neg hb, if_neg hl, ih', Option.map_some]

theorem skipWhite_of_not {c : UInt8} {rest : Bytes} (h : isWhite c = false) :
    skipWhite (c :: rest) = c :: rest := by
  simp [skipWhite, h]

theorem token_self (c : UInt8) (h : isWhite c = false) (rest : Bytes) :
    token c (c :: rest) = some rest := by
  rw [token, skipWhite_of_not h]
  simp

theorem token_ne (c c' : UInt8) (h : isWhite c' = false) (hne : c' ≠ c) (rest : Bytes) :
    token c (c' :: rest) = none := by
  rw [token, skipWhite_of_not h]
  simp [hne]

/-! Decimal digits. -/

theorem digitsValue_append (ds : Bytes) (d : UInt8) :
    digitsValue (ds ++ [d]) = digitsValue ds * 10 + (d.toNat - 48 : Nat) := by
  simp [digitsValue]

theorem digit_toNat {d : Nat} (h : d < 10) : (UInt8.ofNat (48 + d)).toNat = 48 + d := by
  rw [UInt8.toNat_ofNat']
  omega

theorem digit_isDecimal {d : Nat} (h : d < 10) : isDecimal (UInt8.ofNat (48 + d)) = true := by
  simp only [isDecimal, Bool.and_eq_true, decide_eq_true_eq, UInt8.le_iff_toNat_le, digit_toNat h]
  constructor
  · change 48 ≤ 48 + d
    omega
  · change 48 + d ≤ 57
    omega

/-- The digits of a number, and what reading them back gives. -/
structure DigitsOf (n : Nat) (ds : Bytes) : Prop where
  ne_nil : ds ≠ []
  decimal : ∀ d ∈ ds, isDecimal d = true
  value : digitsValue ds = n
  head : n ≠ 0 → ds.head? ≠ some 48
  zero : n = 0 → ds = [48]

theorem digitsOf_lt {n : Nat} (h : n < 10) : DigitsOf n [UInt8.ofNat (48 + n)] where
  ne_nil := by simp
  decimal := by simpa using digit_isDecimal h
  value := by
    simp only [digitsValue, List.foldl_cons, List.foldl_nil, digit_toNat h]
    omega
  head := by
    intro hn he
    have hv : UInt8.ofNat (48 + n) = 48 := by simpa using he
    have ht := congrArg UInt8.toNat hv
    rw [digit_toNat h] at ht
    have h48 : (48 : UInt8).toNat = 48 := rfl
    omega
  zero := by
    rintro rfl
    rfl

theorem digitsOf_snoc {n : Nat} {ds : Bytes} (hn : 10 ≤ n) (h : DigitsOf (n / 10) ds) :
    DigitsOf n (ds ++ [UInt8.ofNat (48 + n % 10)]) where
  ne_nil := by simp
  decimal := by
    intro d hd
    rcases List.mem_append.mp hd with hd | hd
    · exact h.decimal d hd
    · rw [List.mem_singleton.mp hd]
      exact digit_isDecimal (Nat.mod_lt _ (by omega))
  value := by
    rw [digitsValue_append, h.value, digit_toNat (Nat.mod_lt _ (by omega))]
    omega
  head := by
    intro _
    rw [List.head?_append_of_ne_nil _ h.ne_nil]
    exact h.head (by omega)
  zero := by omega

theorem decimalDigits_spec {fuel n : Nat} (h : n < fuel) (acc : Bytes) :
    ∃ ds, DigitsOf n ds ∧ Bytes.decimalDigits fuel n acc = ds ++ acc := by
  induction fuel generalizing n acc with
  | zero => omega
  | succ fuel ih =>
    rw [Bytes.decimalDigits]
    by_cases hn : n < 10
    · rw [if_pos hn]
      exact ⟨_, digitsOf_lt hn, rfl⟩
    · rw [if_neg hn]
      obtain ⟨ds, hds, he⟩ := ih (n := n / 10) (by omega) (UInt8.ofNat (48 + n % 10) :: acc)
      exact ⟨_, digitsOf_snoc (by omega) hds, by rw [he]; simp⟩

theorem decimalText_spec {n : Int} (h : 0 ≤ n) :
    ∃ ds, DigitsOf n.toNat ds ∧ Bytes.decimalText n = ds := by
  obtain ⟨ds, hds, he⟩ := decimalDigits_spec (n := n.natAbs) (Nat.lt_succ_self _) []
  refine ⟨ds, ?_, ?_⟩
  · have : n.toNat = n.natAbs := by omega
    rwa [this]
  · rw [Bytes.decimalText, if_neg (by omega), he, List.append_nil]

theorem plainText_digit {d : UInt8} (h : isDecimal d = true) :
    d ≠ 0x22 ∧ d ≠ 0x5c ∧ ¬ d < 0x20 := by
  refine ⟨?_, ?_, ?_⟩
  · rintro rfl
    exact absurd h (by decide)
  · rintro rfl
    exact absurd h (by decide)
  · intro hlt
    have hge : 48 ≤ d := by
      simp only [isDecimal, Bool.and_eq_true, decide_eq_true_eq] at h
      exact h.1
    have hge' : 48 ≤ d.toNat := UInt8.le_iff_toNat_le.mp hge
    have hlt' : d.toNat < 32 := UInt8.lt_iff_toNat_lt.mp hlt
    omega

/-- The text of an integer is its sign and its digits. -/
theorem decimalText_signed (n : Int) :
    ∃ ds, DigitsOf n.natAbs ds ∧
      Bytes.decimalText n = if n < 0 then 0x2d :: ds else ds := by
  obtain ⟨ds, hds, he⟩ := decimalDigits_spec (Nat.lt_succ_self n.natAbs) []
  rw [List.append_nil] at he
  exact ⟨ds, hds, by rw [Bytes.decimalText, he]⟩

theorem plainText_decimal (n : Int) : PlainText (Bytes.decimalText n) := by
  obtain ⟨ds, hds, he⟩ := decimalText_signed n
  rw [he]
  intro c hc
  split at hc
  · rcases List.mem_cons.mp hc with rfl | hc
    · decide
    · exact plainText_digit (hds.decimal c hc)
  · exact plainText_digit (hds.decimal c hc)

theorem takeWhile_decimal {ds rest : Bytes} (hd : ∀ d ∈ ds, isDecimal d = true)
    (hr : Closes rest) : (ds ++ rest).takeWhile isDecimal = ds := by
  rw [List.takeWhile_append_of_pos hd]
  cases rest with
  | nil => simp
  | cons c rest => simp [hr.1]

theorem dropWhile_decimal {ds rest : Bytes} (hd : ∀ d ∈ ds, isDecimal d = true)
    (hr : Closes rest) : (ds ++ rest).dropWhile isDecimal = rest := by
  rw [List.dropWhile_append_of_pos hd]
  cases rest with
  | nil => simp
  | cons c rest => simp [hr.1]

theorem fraction_closes {rest : Bytes} (h : Closes rest) : fraction rest = some ([], rest) := by
  cases rest with
  | nil => rfl
  | cons c rest => rw [fraction, if_neg h.2.1]

theorem exponentPart_closes {rest : Bytes} (h : Closes rest) :
    exponentPart rest = some (0, rest) := by
  cases rest with
  | nil => rfl
  | cons c rest =>
    have hno : (c = 0x65 || c = 0x45) = false := by simp [h.2.2.1, h.2.2.2]
    simp [exponentPart, hno]

theorem DigitsOf.exists_cons {n : Nat} {ds : Bytes} (h : DigitsOf n ds) :
    ∃ d ds', ds = d :: ds' ∧ isDecimal d = true := by
  cases ds with
  | nil => exact absurd rfl h.ne_nil
  | cons d ds' => exact ⟨d, ds', rfl, h.decimal d List.mem_cons_self⟩

theorem number_digits {n : Nat} {ds rest : Bytes} (h : DigitsOf n ds) (hr : Closes rest) :
    number (ds ++ rest) = some (.num n 0, rest) := by
  obtain ⟨d, ds', rfl, hd⟩ := h.exists_cons
  have hminus : d ≠ 0x2d := by
    rintro rfl
    exact absurd hd (by decide)
  have hlead : ds' = [] ∨ ¬ d = 48 := by
    by_cases hz : n = 0
    · exact Or.inl (List.cons.inj (h.zero hz)).2
    · exact Or.inr fun hd => h.head hz (by rw [hd]; rfl)
  have hsign : signed ((d :: ds') ++ rest) = (1, (d :: ds') ++ rest) := by
    rw [List.cons_append, signed, if_neg hminus]
  simp only [number, hsign, takeWhile_decimal h.decimal hr, dropWhile_decimal h.decimal hr,
    fraction_closes hr]
  simp [guard, hlead, h.value, exponentPart_closes hr]

/-! The whole text. -/

/-- The first byte of a value: no white space, and it closes nothing. -/
structure Opens (b : Bytes) : Prop where
  exists_cons : ∃ c t, b = c :: t ∧ isWhite c = false ∧ c ≠ 0x5d

theorem isWhite_of_decimal {d : UInt8} (h : isDecimal d = true) : isWhite d = false ∧ d ≠ 0x5d := by
  constructor
  · rw [Bool.eq_false_iff]
    intro hw
    simp only [isWhite, Bool.or_eq_true, decide_eq_true_eq] at hw
    rcases hw with ((rfl | rfl) | rfl) | rfl <;> exact absurd h (by decide)
  · rintro rfl
    exact absurd h (by decide)

theorem stringify_opens {v : Json} (h : Plain v) : Opens (stringify v) := by
  cases v with
  | null => exact ⟨_, _, rfl, rfl, by decide⟩
  | bool b => cases b <;> exact ⟨_, _, rfl, rfl, by decide⟩
  | num m e =>
    obtain ⟨hm, rfl⟩ := h
    obtain ⟨ds, hds, he⟩ := decimalText_spec hm
    obtain ⟨d, ds', rfl, hd⟩ := hds.exists_cons
    exact ⟨d, ds', by rw [stringify, if_pos rfl, he], isWhite_of_decimal hd⟩
  | str s => exact ⟨_, _, rfl, rfl, by decide⟩
  | arr items => exact ⟨_, _, by rw [stringify], rfl, by decide⟩
  | obj ms => exact ⟨_, _, by rw [stringify], rfl, by decide⟩

theorem value_of_number {n : Nat} {ds rest : Bytes} (h : DigitsOf n ds) (hr : Closes rest)
    (fuel : Nat) : value (fuel + 1) (ds ++ rest) = some (.num n 0, rest) := by
  have hnum := number_digits h hr
  obtain ⟨d, ds', rfl, hd⟩ := h.exists_cons
  have hne : ∀ c : UInt8, isDecimal c = false → d ≠ c := by
    rintro c hc rfl
    rw [hd] at hc
    cases hc
  rw [List.cons_append] at hnum ⊢
  rw [value, skipWhite_of_not (isWhite_of_decimal hd).1]
  dsimp only
  rw [if_neg (hne _ rfl), if_neg (hne _ rfl), if_neg (hne _ rfl), if_neg (hne _ rfl),
    if_neg (hne _ rfl), if_neg (hne _ rfl), hnum]

mutual

theorem value_stringify (v : Json) (hv : Plain v) (fuel : Nat)
    (hf : 2 * (stringify v).length ≤ fuel) (rest : Bytes) (hr : Closes rest) :
    value fuel (stringify v ++ rest) = some (v, rest) := by
  obtain ⟨c₀, t₀, h₀, -, -⟩ := (stringify_opens hv).exists_cons
  have hpos : 1 ≤ (stringify v).length := by
    rw [h₀]
    simp
  obtain ⟨fuel, rfl⟩ : ∃ f, fuel = f + 1 := ⟨fuel - 1, by omega⟩
  match v with
  | .null => rfl
  | .bool true => rfl
  | .bool false => rfl
  | .num m e =>
    obtain ⟨hm, rfl⟩ := hv
    obtain ⟨ds, hds, he⟩ := decimalText_spec hm
    rw [stringify, if_pos rfl, he, value_of_number hds hr]
    simp [hm]
  | .str s =>
    change value (fuel + 1) (0x22 :: ((s ++ [0x22]) ++ rest)) = _
    rw [List.append_assoc, List.singleton_append, value, skipWhite_of_not rfl]
    simp [stringBody_plain hv]
  | .arr items =>
    rw [stringify, List.cons_append, List.append_assoc, List.singleton_append, value,
      skipWhite_of_not rfl]
    match items with
    | [] => rfl
    | w :: ws =>
      have hlen : 2 * (stringifyItems (w :: ws)).length + 1 ≤ fuel := by
        simp only [stringify, List.length_cons, List.length_append] at hf
        omega
      obtain ⟨c, t, hc, hcw, hcb⟩ := (stringify_opens hv.1).exists_cons
      have htok : token 0x5d (stringifyItems (w :: ws) ++ 0x5d :: rest) = none := by
        rw [stringifyItems, hc, List.cons_append, List.cons_append]
        exact token_ne _ _ hcw hcb _
      have hel := elements_stringify (w :: ws) hv (by simp) fuel hlen rest
      simp only [htok, hel]
      simp
  | .obj ms =>
    rw [stringify, List.cons_append, List.append_assoc, List.singleton_append, value,
      skipWhite_of_not rfl]
    match ms with
    | [] => rfl
    | (name, w) :: ms =>
      have hlen : 2 * (stringifyMembers ((name, w) :: ms)).length + 1 ≤ fuel := by
        simp only [stringify, List.length_cons, List.length_append] at hf
        omega
      have htok : token 0x7d (stringifyMembers ((name, w) :: ms) ++ 0x7d :: rest) = none := by
        rw [stringifyMembers, quote, List.cons_append, List.cons_append, List.cons_append]
        exact token_ne _ _ rfl (by decide) _
      have hmem := members_stringify ((name, w) :: ms) hv (by simp) fuel hlen rest
      simp only [htok, hmem]
      simp

theorem elements_stringify (items : List Json) (hv : PlainItems items) (hne : items ≠ [])
    (fuel : Nat) (hf : 2 * (stringifyItems items).length + 1 ≤ fuel) (rest : Bytes) :
    elements fuel (stringifyItems items ++ 0x5d :: rest) = some (items, rest) := by
  obtain ⟨fuel, rfl⟩ : ∃ f, fuel = f + 1 := ⟨fuel - 1, by omega⟩
  match items with
  | [] => exact absurd rfl hne
  | [v] =>
    have hlen : 2 * (stringify v).length ≤ fuel := by
      simp only [stringifyItems, List.isEmpty_nil, if_true, List.append_nil] at hf
      omega
    have hval := value_stringify v hv.1 fuel hlen (0x5d :: rest) ⟨rfl, by decide, by decide, by decide⟩
    rw [stringifyItems, List.isEmpty_nil, if_pos rfl, List.append_nil, elements, hval]
    simp [token_ne 0x2c 0x5d rfl (by decide), token_self 0x5d rfl]
  | v :: w :: ws =>
    have hlen : 2 * (stringify v).length ≤ fuel ∧
        2 * (stringifyItems (w :: ws)).length + 1 ≤ fuel := by
      rw [stringifyItems] at hf
      simp only [List.isEmpty_cons, Bool.false_eq_true, if_false, List.length_append,
        List.length_cons] at hf
      omega
    have hval := value_stringify v hv.1 fuel hlen.1
      (0x2c :: (stringifyItems (w :: ws) ++ 0x5d :: rest)) ⟨rfl, by decide, by decide, by decide⟩
    have hrest := elements_stringify (w :: ws) hv.2 (by simp) fuel hlen.2 rest
    rw [stringifyItems, List.isEmpty_cons, if_neg (by simp), List.append_assoc, List.cons_append,
      elements, hval]
    simp [token_self 0x2c rfl, hrest]

theorem members_stringify (ms : List (Bytes × Json)) (hv : PlainMembers ms) (hne : ms ≠ [])
    (fuel : Nat) (hf : 2 * (stringifyMembers ms).length + 1 ≤ fuel) (rest : Bytes) :
    members fuel (stringifyMembers ms ++ 0x7d :: rest) = some (ms, rest) := by
  obtain ⟨fuel, rfl⟩ : ∃ f, fuel = f + 1 := ⟨fuel - 1, by omega⟩
  match ms with
  | [] => exact absurd rfl hne
  | [(name, v)] =>
    have hlen : 2 * (stringify v).length ≤ fuel := by
      simp only [stringifyMembers, quote, List.isEmpty_nil, if_true, List.append_nil,
        List.length_append, List.length_cons] at hf
      omega
    have hval := value_stringify v hv.2.1 fuel hlen (0x7d :: rest)
      ⟨rfl, by decide, by decide, by decide⟩
    rw [stringifyMembers, quote, List.isEmpty_nil, if_pos rfl, List.append_nil, members]
    simp [token_self 0x22 rfl, token_self 0x3a rfl, stringBody_plain hv.1, hval,
      token_ne 0x2c 0x7d rfl (by decide), token_self 0x7d rfl]
  | (name, v) :: m :: ms =>
    have hlen : 2 * (stringify v).length ≤ fuel ∧
        2 * (stringifyMembers (m :: ms)).length + 1 ≤ fuel := by
      rw [stringifyMembers] at hf
      simp only [quote, List.isEmpty_cons, Bool.false_eq_true, if_false, List.length_append,
        List.length_cons] at hf
      omega
    have hval := value_stringify v hv.2.1 fuel hlen.1
      (0x2c :: (stringifyMembers (m :: ms) ++ 0x7d :: rest)) ⟨rfl, by decide, by decide, by decide⟩
    have hrest := members_stringify (m :: ms) hv.2.2 (by simp) fuel hlen.2 rest
    rw [stringifyMembers, quote, List.isEmpty_cons, if_neg (by simp), members]
    simp [token_self 0x22 rfl, token_self 0x3a rfl, stringBody_plain hv.1, hval,
      token_self 0x2c rfl, hrest]

end

/-- A plain value survives being written and read back. -/
theorem parse_stringify {v : Json} (hv : Plain v) : parse (stringify v) = some v := by
  have h := value_stringify v hv (2 * (stringify v).length + 1) (by omega) [] trivial
  rw [List.append_nil] at h
  rw [parse, h]
  rfl

end Json
