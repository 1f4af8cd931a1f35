import CronFire.Proofs.Text.Digits
import CronFire.Proofs.Terminal.Wrapped
/-!
# Text without emoji codes

A picture takes the place of a code with both of its colons, and holds neither colons nor blanks.
So a text either stays as it is or loses two colons, and it gets no new blanks.  The minutes of a
time between their colons are no code, since no name of two digits has a picture.

Results:
* `replace_eq_self_or`: a text stays as it is, or loses two colons at least.
* `mem_of_mem_replace`: no blank is new.
* `replace_between_digits`: a time is left as it is.
-/
namespace CronFire.Terminal.Emoji

open Text

variable {e : Emoji} {cs ds code : List Char} {parts : List (List Char)} {c : Char}

/-! ## Parts -/

/-- A text is its first part and then the others with a colon before each. -/
theorem exists_pieces (cs : List Char) : ∃ part parts, pieces ':' cs = part :: parts ∧
    cs = part ++ parts.flatMap (':' :: ·) := by
  induction cs with
  | nil => exact ⟨[], [], rfl, rfl⟩
  | cons c cs ih =>
    obtain ⟨part, parts, hparts, hcs⟩ := ih
    rw [pieces, hparts]
    split
    · rename_i hc
      refine ⟨[], part :: parts, rfl, ?_⟩
      rw [hc, hcs]
      rfl
    · exact ⟨c :: part, parts, rfl, congrArg (c :: ·) hcs⟩

theorem exists_replace (e : Emoji) (cs : List Char) : ∃ part parts,
    e.replace cs = part ++ e.replaceParts parts ∧ cs = part ++ parts.flatMap (':' :: ·) := by
  obtain ⟨part, parts, hparts, hcs⟩ := exists_pieces cs
  exact ⟨part, parts, by rw [replace, hparts], hcs⟩

theorem pieces_append (h : ':' ∉ cs) (ds : List Char) :
    pieces ':' (cs ++ ':' :: ds) = cs :: pieces ':' ds := by
  induction cs with
  | nil => exact if_pos rfl
  | cons c cs ih =>
    rw [List.mem_cons, not_or] at h
    rw [List.cons_append, pieces, if_neg (Ne.symm h.1), ih h.2]

/-- A character in front of a text stays there. -/
theorem replace_cons (hc : c ≠ ':') : e.replace (c :: cs) = c :: e.replace cs := by
  obtain ⟨part, parts, hparts, -⟩ := exists_pieces cs
  rw [replace, replace, pieces, if_neg hc, hparts]
  rfl

/-! ## Codes -/

theorem of_mem_mark (h : c ∈ (readCode code).2) : c ≠ ':' ∧ isBlank c = false := by
  have hmarks : ∀ v ∈ variants, v.2 ≠ ':' ∧ isBlank v.2 = false := by decide
  unfold readCode at h
  split at h
  · rename_i hfound
    obtain rfl := List.mem_singleton.1 h
    exact hmarks _ (List.mem_of_find?_eq_some hfound)
  · cases h

/-- A code is shown as it stands, or without its colons and blanks. -/
theorem display_cases (e : Emoji) (code : List Char) : e.display code = ':' :: code ++ [':'] ∨
    ∀ c ∈ e.display code, c ≠ ':' ∧ isBlank c = false := by
  unfold display
  dsimp only
  split
  · rename_i hpicture
    exact .inr (List.forall_mem_append.2 ⟨e.isPicture hpicture, fun _ => of_mem_mark⟩)
  · exact .inl rfl

theorem colons_colon (cs : List Char) : colons (':' :: cs) = colons cs + 1 :=
  List.countP_cons_of_pos rfl

theorem colons_eq_zero (h : ':' ∉ cs) : colons cs = 0 :=
  List.countP_eq_zero.2 fun c hc hcolon => h (by rwa [← beq_iff_eq.1 hcolon])

theorem replaceParts_eq_or (e : Emoji) (parts : List (List Char)) :
    e.replaceParts parts = parts.flatMap (':' :: ·) ∨
      colons (e.replaceParts parts) + 2 ≤ colons (parts.flatMap (':' :: ·)) := by
  fun_induction e.replaceParts parts with
  | case1 code next parts _ ih =>
    simp only [List.flatMap_cons, List.cons_append, colons_colon, colons_append]
    rcases e.display_cases code with hcode | hpicture
    · rw [hcode]
      refine ih.imp (fun hrest => by simp [hrest]) fun hrest => ?_
      simp only [List.cons_append, colons_colon, colons_append, colons_nil]
      omega
    · have hnone := colons_eq_zero fun hmem => (hpicture ':' hmem).1 rfl
      have hrest : colons (e.replaceParts parts) ≤ colons (parts.flatMap (':' :: ·)) := by
        rcases ih with hrest | hrest
        · rw [hrest]
        · omega
      exact .inr (by omega)
  | case2 part next parts _ ih =>
    rw [List.flatMap_cons]
    refine ih.imp (fun hrest => by rw [hrest]) fun hrest => ?_
    simp only [List.cons_append, colons_colon, colons_append]
    omega
  | case3 part => exact .inl (by simp)
  | case4 => exact .inl rfl

/-- A text stays as it is, or loses the colons of a code. -/
theorem replace_eq_self_or (e : Emoji) (cs : List Char) :
    e.replace cs = cs ∨ colons (e.replace cs) + 2 ≤ colons cs := by
  obtain ⟨part, parts, hreplace, hcs⟩ := exists_replace e cs
  rw [hreplace, hcs, colons_append, colons_append]
  refine (replaceParts_eq_or e parts).imp (congrArg (part ++ ·)) fun hrest => ?_
  omega

theorem replace_of_colons_le_one (h : colons cs ≤ 1) : e.replace cs = cs :=
  (replace_eq_self_or e cs).resolve_right (by omega)

theorem mem_of_mem_replaceParts (h : c ∈ e.replaceParts parts) (hblank : isBlank c = true) :
    c ∈ parts.flatMap (':' :: ·) := by
  fun_induction e.replaceParts parts with
  | case1 code next parts _ ih =>
    rw [List.mem_append, List.mem_append] at h
    rw [List.flatMap_cons, List.flatMap_cons]
    rcases h with (h | h) | h
    · rcases e.display_cases code with hcode | hpicture
      · rw [hcode] at h
        rcases List.mem_append.1 h with h | h
        · exact List.mem_append_left _ h
        · simp [List.mem_singleton.1 h]
      · rw [(hpicture c h).2] at hblank
        cases hblank
    · simp [h]
    · simp [ih h]
  | case2 part next parts _ ih =>
    rw [List.flatMap_cons]
    exact List.mem_append.2 ((List.mem_append.1 h).imp_right ih)
  | case3 part => simpa using h
  | case4 => exact h

/-- No blank is new. -/
theorem mem_of_mem_replace (h : c ∈ e.replace cs) (hblank : isBlank c = true) : c ∈ cs := by
  obtain ⟨part, parts, hreplace, hcs⟩ := exists_replace e cs
  rw [hreplace] at h
  rw [hcs]
  exact List.mem_append.2 ((List.mem_append.1 h).imp_right (mem_of_mem_replaceParts · hblank))

/-! ## Digits -/

/-- A name of two digits has no picture. -/
theorem display_of_digits {a b : Char} (ha : a.isDigit = true) (hb : b.isDigit = true) :
    e.display [a, b] = [':', a, b, ':'] := by
  have hshort : ∀ v ∈ variants, v.1.isSuffixOf [a, b] = false := by
    simp [variants, List.isSuffixOf, List.isPrefixOf]
  have hread : readCode [a, b] = ([a, b], []) := by
    rw [readCode, List.find?_eq_none.2 fun v hv => Bool.eq_false_iff.1 (hshort v hv)]
  have hlower : lower [a, b] = [a, b] := lower_of_isDigit (by simp [ha, hb])
  rw [display, hread]
  simp only [hlower, e.twoDigits ha hb]
  rfl

/-- Two digits between the only colons of a text are no code. -/
theorem replace_between_digits {a b : Char} (ha : a.isDigit = true) (hb : b.isDigit = true)
    (hcs : ':' ∉ cs) (hds : ':' ∉ ds) :
    e.replace (cs ++ ':' :: a :: b :: ':' :: ds) = cs ++ ':' :: a :: b :: ':' :: ds := by
  have hdigits : ':' ∉ [a, b] := by
    have hcolon : ∀ d : Char, d.isDigit = true → ':' ≠ d := by
      rintro d hd rfl
      exact absurd hd (by decide)
    simp [hcolon a ha, hcolon b hb]
  have hparts : pieces ':' (cs ++ ':' :: a :: b :: ':' :: ds) = [cs, [a, b], ds] := by
    rw [pieces_append hcs, ← pieces_of_not_mem hds, ← pieces_append hdigits]
    rfl
  rw [replace, hparts]
  simp only [replaceParts, display_of_digits ha hb]
  split <;> simp

end CronFire.Terminal.Emoji
