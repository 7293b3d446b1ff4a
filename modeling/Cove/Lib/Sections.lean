import Cove.Lib.Separated

/-! Texts made of sections of lines, with a bar on a line of its own between each two. -/

namespace Bytes

theorem mem_intercalate {α : Type} {sep : List α} {ls : List (List α)} {x : α}
    (h : x ∈ sep.intercalate ls) : x ∈ sep ∨ ∃ l ∈ ls, x ∈ l := by
  induction ls with
  | nil => simp [List.intercalate] at h
  | cons l ls ih =>
    cases ls with
    | nil =>
      simp only [List.intercalate_singleton] at h
      exact Or.inr ⟨l, List.mem_cons_self, h⟩
    | cons l' ls =>
      have hcons : sep.intercalate (l :: l' :: ls) = l ++ (sep ++ sep.intercalate (l' :: ls)) := by
        simp [List.intercalate]
      rw [hcons, List.mem_append, List.mem_append] at h
      rcases h with hl | hsep | hrest
      · exact Or.inr ⟨l, List.mem_cons_self, hl⟩
      · exact Or.inl hsep
      · rcases ih hrest with hsep | ⟨m, hm, hx⟩
        · exact Or.inl hsep
        · exact Or.inr ⟨m, List.mem_cons_of_mem _ hm, hx⟩

theorem join_append (sep : Bytes) {ls ls' : List Bytes} (hne : ls ≠ []) (hne' : ls' ≠ []) :
    join sep (ls ++ ls') = join sep ls ++ sep ++ join sep ls' := by
  induction ls with
  | nil => exact absurd rfl hne
  | cons l ls ih =>
    cases ls with
    | nil =>
      cases ls' with
      | nil => exact absurd rfl hne'
      | cons l' ls' => rfl
    | cons m ls =>
      have htail := ih (List.cons_ne_nil m ls)
      rw [List.cons_append, List.cons_append, join, ← List.cons_append, htail, join]
      simp only [List.append_assoc]

/-- The sections joined by the bar are the lines of all of them and the bars, joined. -/
theorem join_sections (sep bar : Bytes) {sections : List (List Bytes)}
    (hne : ∀ ls ∈ sections, ls ≠ []) :
    join (sep ++ bar ++ sep) (sections.map (join sep)) =
      join sep ([bar].intercalate sections) := by
  induction sections with
  | nil => rfl
  | cons ls sections ih =>
    have hls : ls ≠ [] := hne ls List.mem_cons_self
    cases sections with
    | nil => simp [join]
    | cons ls' sections =>
      have hrest := ih fun l hl => hne l (List.mem_cons_of_mem _ hl)
      have hls' : ls' ≠ [] := hne ls' (List.mem_cons_of_mem _ List.mem_cons_self)
      have htail : [bar].intercalate (ls' :: sections) ≠ [] := by
        cases sections <;> simp [List.intercalate, hls']
      have hcons : [bar].intercalate (ls :: ls' :: sections) =
          ls ++ ([bar] ++ [bar].intercalate (ls' :: sections)) := by
        simp [List.intercalate]
      rw [hcons, join_append sep hls (by simp), join_append sep (by simp) htail, ← hrest]
      simp only [List.map_cons, join, List.append_assoc]

/-- Sections can be read off the text: no line holds the separator or is the bar. -/
theorem sections_inj {c : UInt8} {bar : Bytes} {sections sections' : List (List Bytes)}
    (hbar : c ∉ bar) (hne : ∀ ls ∈ sections, ls ≠ []) (hne' : ∀ ls ∈ sections', ls ≠ [])
    (hc : ∀ ls ∈ sections, ∀ l ∈ ls, c ∉ l ∧ l ≠ bar)
    (hc' : ∀ ls ∈ sections', ∀ l ∈ ls, c ∉ l ∧ l ≠ bar)
    (hsome : sections ≠ []) (hsome' : sections' ≠ [])
    (h : join ([c] ++ bar ++ [c]) (sections.map (join [c])) =
      join ([c] ++ bar ++ [c]) (sections'.map (join [c]))) : sections = sections' := by
  have hlines {ss : List (List Bytes)} (hss : ∀ ls ∈ ss, ∀ l ∈ ls, c ∉ l ∧ l ≠ bar) :
      ∀ l ∈ [bar].intercalate ss, c ∉ l := by
    intro l hl
    rcases mem_intercalate hl with hb | ⟨ls, hls, hin⟩
    · rw [List.mem_singleton.mp hb]
      exact hbar
    · exact (hss ls hls l hin).1
  have hfilled {ss : List (List Bytes)} (hss : ∀ ls ∈ ss, ls ≠ []) (hs : ss ≠ []) :
      [bar].intercalate ss ≠ [] := by
    cases ss with
    | nil => exact absurd rfl hs
    | cons ls ss =>
      have hls := hss ls List.mem_cons_self
      cases ss <;> simp [List.intercalate, hls]
  rw [join_sections _ _ hne, join_sections _ _ hne'] at h
  have hjoined := join_inj (hlines hc) (hlines hc') (hfilled hne hsome) (hfilled hne' hsome') h
  have hsplit := List.splitOn_intercalate bar (fun ls hls hin => (hc ls hls bar hin).2 rfl) hsome
  rw [hjoined, List.splitOn_intercalate bar (fun ls hls hin => (hc' ls hls bar hin).2 rfl) hsome']
    at hsplit
  exact hsplit.symm

end Bytes
