import EventBindings.Proofs.Text.Bytes

namespace EventBindings.Text

/-!
The order of texts. Texts are ordered by their characters, and their bytes in
UTF-8 stand in the same order.
-/

theorem cons_lt_cons_of_le {low high : Nat} {more rest : List UInt8} (ordered : low ≤ high)
    (bound : high < 256) (behind : low = high → more < rest) :
    UInt8.ofNat low :: more < UInt8.ofNat high :: rest := by
  rw [List.cons_lt_cons_iff]
  rcases Nat.lt_or_eq_of_le ordered with below | same
  · refine .inl (UInt8.lt_iff_toNat_lt.mpr ?_)
    rwa [UInt8.toNat_ofNat_of_lt' (Nat.lt_trans below bound), UInt8.toNat_ofNat_of_lt' bound]
  · exact .inr ⟨by rw [same], behind same⟩

/-- Whatever stands behind two characters, their bytes decide the order. -/
theorem utf8EncodeChar_append_lt {c d : Char} (below : c < d) (more rest : List UInt8) :
    String.utf8EncodeChar c ++ more < String.utf8EncodeChar d ++ rest := by
  have smaller : c.val.toNat < d.val.toNat := below
  have bound : d.val.toNat < 0x110000 := by
    have valid := d.valid
    simp only [UInt32.isValidChar, Nat.isValidChar] at valid
    omega
  simp only [String.utf8EncodeChar]
  generalize c.val.toNat = low at smaller ⊢
  generalize d.val.toNat = high at smaller bound ⊢
  repeat' split
  all_goals simp only [List.cons_append, List.nil_append]
  iterate 4
    all_goals refine cons_lt_cons_of_le (by omega) (by omega) fun same => ?_
    all_goals try omega

theorem bytes_lt_of_lt {left right : List Char} (below : left < right) :
    bytes left < bytes right := by
  induction left generalizing right with
  | nil =>
      cases right with
      | nil => exact absurd below (List.lt_irrefl _)
      | cons d right =>
          obtain ⟨byte, more, encoded⟩ :=
            List.exists_cons_of_ne_nil (String.utf8EncodeChar_ne_nil (c := d))
          rw [bytes_cons, encoded]
          exact List.nil_lt_cons _ _
  | cons c left ih =>
      cases right with
      | nil => exact absurd below (List.not_lt_nil _)
      | cons d right =>
          rw [bytes_cons, bytes_cons]
          rcases List.cons_lt_cons_iff.mp below with smaller | ⟨rfl, behind⟩
          · exact utf8EncodeChar_append_lt smaller _ _
          · exact List.append_left_lt (ih behind)

/-- Texts stand in the order of their bytes. -/
theorem bytes_lt_iff {left right : List Char} : bytes left < bytes right ↔ left < right := by
  refine ⟨fun below => Decidable.byContradiction fun notBelow => ?_, bytes_lt_of_lt⟩
  by_cases above : right < left
  · exact List.lt_asymm below (bytes_lt_of_lt above)
  · have same : left = right := List.le_antisymm above notBelow
    rw [same] at below
    exact List.lt_irrefl _ below

theorem toByteArray_lt_iff {left right : String} :
    left.toByteArray.data.toList < right.toByteArray.data.toList ↔ left < right := by
  rw [toList_toByteArray, toList_toByteArray, bytes_lt_iff]
  rfl

end EventBindings.Text
