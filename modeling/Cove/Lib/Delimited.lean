import Cove.Lib.Bytes

/-! Self-delimiting encodings. From the code of a value, with anything behind it, the value and
what stands behind it can be told apart. -/

variable {α β γ : Type}

/-- Where the codes of two values of `P` begin the same list, the values are one and so are the
rests. -/
def Delimited (P : α → Prop) (enc : α → List β) : Prop :=
  ∀ ⦃a b : α⦄, P a → P b → ∀ ⦃s t : List β⦄, enc a ++ s = enc b ++ t → a = b ∧ s = t

namespace Delimited

variable {P : α → Prop} {Q : γ → Prop} {enc : α → List β} {enc' : γ → List β}

theorem inj (h : Delimited P enc) {a b : α} (ha : P a) (hb : P b) (he : enc a = enc b) : a = b := by
  have happ : enc a ++ [] = enc b ++ [] := by rw [he]
  exact (h ha hb happ).1

theorem mono {P' : α → Prop} (h : Delimited P enc) (hP : ∀ a, P' a → P a) : Delimited P' enc := by
  intro a b ha hb s t he
  exact h (hP a ha) (hP b hb) he

/-- Codes of one length need no delimiter. -/
theorem fixed (k : Nat) (hlen : ∀ a, P a → (enc a).length = k)
    (hinj : ∀ a b, P a → P b → enc a = enc b → a = b) : Delimited P enc := by
  intro a b ha hb s t he
  have hl : (enc a).length = (enc b).length := by rw [hlen a ha, hlen b hb]
  obtain ⟨henc, hst⟩ := List.append_inj he hl
  exact ⟨hinj a b ha hb henc, hst⟩

/-- A field of a known width. -/
theorem field (k : Nat) : Delimited (fun b : List β => b.length = k) id :=
  fixed k (fun _ h => h) (fun _ _ _ _ h => h)

/-- A known number of codes, one behind the other. -/
theorem replicate (h : Delimited P enc) (n : Nat) :
    Delimited (fun l : List α => l.length = n ∧ ∀ a ∈ l, P a) (fun l => l.flatMap enc) := by
  induction n with
  | zero =>
    intro l m hl hm s t he
    obtain rfl := List.length_eq_zero_iff.mp hl.1
    obtain rfl := List.length_eq_zero_iff.mp hm.1
    exact ⟨rfl, he⟩
  | succ n ih =>
    intro l m hl hm s t he
    obtain ⟨a, l, rfl⟩ := List.exists_cons_of_length_eq_add_one hl.1
    obtain ⟨b, m, rfl⟩ := List.exists_cons_of_length_eq_add_one hm.1
    simp only [List.flatMap_cons, List.append_assoc, List.length_cons, Nat.add_right_cancel_iff,
      List.mem_cons, forall_eq_or_imp] at he hl hm
    obtain ⟨rfl, hrest⟩ := h hl.2.1 hm.2.1 he
    obtain ⟨rfl, hst⟩ := ih ⟨hl.1, hl.2.2⟩ ⟨hm.1, hm.2.2⟩ hrest
    exact ⟨rfl, hst⟩

/-- A list behind its length. -/
theorem list {N : Nat → Prop} {len : Nat → List β} (hlen : Delimited N len) (h : Delimited P enc) :
    Delimited (fun l : List α => N l.length ∧ ∀ a ∈ l, P a)
      (fun l => len l.length ++ l.flatMap enc) := by
  intro l m hl hm s t he
  simp only [List.append_assoc] at he
  obtain ⟨hn, hrest⟩ := hlen hl.1 hm.1 he
  exact replicate h l.length ⟨rfl, hl.2⟩ ⟨hn.symm, hm.2⟩ hrest

/-- A byte string behind its length. -/
theorem prefixed {N : Nat → Prop} {len : Nat → List β} (hlen : Delimited N len) :
    Delimited (fun b : List β => N b.length) (fun b => len b.length ++ b) := by
  intro a b ha hb s t he
  simp only [List.append_assoc] at he
  obtain ⟨hn, hrest⟩ := hlen ha hb he
  exact field a.length rfl hn.symm hrest

/-- A number written big-endian in a fixed number of bytes. -/
theorem natBE (k : Nat) : Delimited (fun n => n < 256 ^ k) (Bytes.ofNatBE k) := by
  refine fixed k (fun n _ => Bytes.length_ofNatBE k n) ?_
  intro m n hm hn he
  have := congrArg Bytes.toNatBE he
  rwa [Bytes.toNatBE_ofNatBE hm, Bytes.toNatBE_ofNatBE hn] at this

/-- And little-endian. -/
theorem natLE (k : Nat) : Delimited (fun n => n < 256 ^ k) (Bytes.ofNatLE k) :=
  fixed k (fun n _ => Bytes.length_ofNatLE k n) (fun _ _ hm hn => Bytes.ofNatLE_injective hm hn)

end Delimited
