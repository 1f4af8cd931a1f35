import CronFire.Toml.Text
import Mathlib.Tactic.Common
/-!
# Strings that are written as they are

A text may stand between double quotes as it is when it is plain: it has no double quote, no
backslash and no control character but tab.  Any other text comes back as a different one, or
not at all, because whatever is not read as it is gives fewer characters than it has.

* `string_plain`: a plain text between quotes is read as it is.
* `Spells`: the source of a string, apart from its quotes, and the text that it stands for.
* `string_inv`: what a string takes up of the source, and what it gives for that.
* `string_written`: a text that is read back from between quotes is plain.
-/
namespace CronFire.Toml

/-- A character that stands for itself between double quotes. -/
def IsPlainChar (c : Char) : Prop := c ≠ '"' ∧ c ≠ '\\' ∧ isControl c = false

instance : DecidablePred IsPlainChar := fun _ => inferInstanceAs (Decidable (_ ∧ _))

/-- A text of such characters. -/
def IsPlain (cs : List Char) : Prop := ∀ c ∈ cs, IsPlainChar c

instance : DecidablePred IsPlain := fun _ => List.decidableBAll _ _

theorem isPlain_cons {c : Char} {cs : List Char} :
    IsPlain (c :: cs) ↔ IsPlainChar c ∧ IsPlain cs := List.forall_mem_cons

@[simp] theorem before_ok (cs ds rest : List Char) :
    before cs (.ok (ds, rest)) = .ok (cs ++ ds, rest) := rfl

theorem before_eq_ok_iff {cs v rest : List Char} {r : Reading (List Char)} :
    before cs r = .ok (v, rest) ↔ ∃ ds, r = .ok (ds, rest) ∧ v = cs ++ ds := by
  rcases r with fault | ⟨ds, more⟩
  · simp [before, Except.map]
  · simp only [before_ok, Except.ok.injEq, Prod.mk.injEq]
    constructor
    · rintro ⟨rfl, rfl⟩
      exact ⟨ds, ⟨rfl, rfl⟩, rfl⟩
    · rintro ⟨_, ⟨rfl, rfl⟩, rfl⟩
      exact ⟨rfl, rfl⟩

@[simp] theorem malformed_ne_ok {α : Type} (a : α) : (malformed : Except Fault α) ≠ .ok a :=
  nofun

/-! ## A plain text is read as it is -/

/-- Without a backslash at its start a one-line string is read character by character. -/
theorem basicString_cons {c : Char} (h : c ≠ '\\') (cs : List Char) :
    basicString (c :: cs) =
      if c = '"' then .ok ([], cs)
      else if isControl c then malformed
      else before [c] (basicString cs) := by
  rw [basicString]
  · simp [h]
  all_goals intros; contradiction

theorem basicString_plain {cs : List Char} (h : IsPlain cs) (rest : List Char) :
    basicString (cs ++ '"' :: rest) = .ok (cs, rest) := by
  induction cs with
  | nil => rw [List.nil_append, basicString_cons (by decide), if_pos rfl]
  | cons c cs ih =>
    obtain ⟨⟨hquote, hslash, hcontrol⟩, hcs⟩ := isPlain_cons.mp h
    rw [List.cons_append, basicString_cons hslash, if_neg hquote, hcontrol, ih hcs]
    rfl

/-- A plain text is never taken for the start of a string in several lines. -/
theorem string_plain {cs rest : List Char} (h : IsPlain cs) (hrest : rest.head? ≠ some '"') :
    string ('"' :: (cs ++ '"' :: rest)) = .ok (cs, rest) := by
  rw [string]
  · exact basicString_plain h rest
  · intro more hmore
    cases cs with
    | nil =>
      have : rest = '"' :: more := (List.cons.inj hmore).2
      exact hrest (by rw [this]; rfl)
    | cons c cs => exact (isPlain_cons.mp h).1.1 (List.cons.inj hmore).1

/-! ## What the source of a string stands for -/

/-- The source of a string and the text it stands for.  A character stands for itself if `p`
holds of it; anything else gives fewer characters than it has, and has no opening bracket. -/
inductive Spells (p : Char → Prop) : List Char → List Char → Prop
  | done : Spells p [] []
  | asIs {c : Char} {source v : List Char} : p c → Spells p source v →
      Spells p (c :: source) (c :: v)
  | shorter {code x source v : List Char} : '[' ∉ code → x.length < code.length →
      Spells p source v → Spells p (code ++ source) (x ++ v)

namespace Spells

variable {p : Char → Prop} {source v : List Char}

theorem length_le (h : Spells p source v) : v.length ≤ source.length := by
  induction h with
  | done => exact Nat.le_refl _
  | asIs _ _ ih => exact Nat.succ_le_succ ih
  | shorter _ hx _ ih => simp only [List.length_append]; omega

/-- Nothing was left out of a source that is as long as its text. -/
theorem eq_of_length (h : Spells p source v) (hlength : source.length ≤ v.length) :
    source = v ∧ ∀ c ∈ v, p c := by
  induction h with
  | done => exact ⟨rfl, nofun⟩
  | asIs hc _ ih =>
    obtain ⟨rfl, hp⟩ := ih (Nat.le_of_succ_le_succ hlength)
    exact ⟨rfl, List.forall_mem_cons.mpr ⟨hc, hp⟩⟩
  | shorter _ hx h _ =>
    have := h.length_le
    simp only [List.length_append] at hlength
    omega

theorem count_le (h : Spells p source v) : source.count '[' ≤ v.count '[' := by
  induction h with
  | done => exact Nat.le_refl _
  | asIs _ _ ih => simp only [List.count_cons]; omega
  | shorter hcode _ _ ih =>
    rw [List.count_append, List.count_append, List.count_eq_zero_of_not_mem hcode]
    omega

end Spells

/-- The text `cs` begins with the source of a string, which `n` quotes end, and goes on with
`rest`.  At most `extra` quotes right after the closing ones belong to the string. -/
def IsClosed (p : Char → Prop) (n extra : Nat) (cs v rest : List Char) : Prop :=
  ∃ source w k, cs = source ++ (List.replicate (n + k) '"' ++ rest) ∧
    v = w ++ List.replicate k '"' ∧ k ≤ extra ∧ Spells p source w

namespace IsClosed

variable {p : Char → Prop} {n extra : Nat} {cs v rest : List Char}

theorem asIs {c : Char} (hc : p c) (h : IsClosed p n extra cs v rest) :
    IsClosed p n extra (c :: cs) (c :: v) rest := by
  obtain ⟨source, w, k, rfl, rfl, hk, hs⟩ := h
  exact ⟨c :: source, c :: w, k, rfl, rfl, hk, .asIs hc hs⟩

theorem shorter (code x : List Char) (hcode : '[' ∉ code)
    (hx : x.length < code.length) (h : IsClosed p n extra cs v rest) :
    IsClosed p n extra (code ++ cs) (x ++ v) rest := by
  obtain ⟨source, w, k, rfl, rfl, hk, hs⟩ := h
  exact ⟨code ++ source, x ++ w, k, by simp, by simp, hk, .shorter hcode hx hs⟩

end IsClosed

theorem hexNumber?_digits {cs : List Char} {n : Nat} (h : hexNumber? cs = some n) {c : Char}
    (hc : c ∈ cs) : (hexValue? c).isSome := by
  unfold hexNumber? at h
  generalize 0 = start at h
  induction cs generalizing start with
  | nil => cases hc
  | cons d ds ih =>
    rw [List.foldlM_cons, Option.bind_eq_bind, Option.bind_eq_some_iff] at h
    obtain ⟨m, hm, hds⟩ := h
    rcases List.mem_cons.mp hc with rfl | hc
    · rw [Option.map_eq_some_iff] at hm
      obtain ⟨a, ha, -⟩ := hm
      rw [ha]
      rfl
    · exact ih hc m hds

/-- No bracket is a hexadecimal digit. -/
theorem not_mem_of_hexChar? {cs : List Char} {x : Char} (h : hexChar? cs = some x) : '[' ∉ cs := by
  intro hmem
  obtain ⟨n, hn, -⟩ := Option.bind_eq_some_iff.mp h
  have hdigit : (hexValue? '[').isSome := hexNumber?_digits hn hmem
  revert hdigit
  decide

theorem ne_of_escaped? {c x : Char} (h : escaped? c = some x) : '[' ≠ c := by
  rintro rfl
  cases h

theorem basicString_isClosed {cs v rest : List Char} (h : basicString cs = .ok (v, rest)) :
    IsClosed IsPlainChar 1 0 cs v rest := by
  fun_induction basicString cs generalizing v with
  | case1 a b c d cs x hx ih =>
    obtain ⟨w, hw, rfl⟩ := before_eq_ok_iff.mp h
    exact (ih hw).shorter ['\\', 'u', a, b, c, d] [x]
      (by simpa using not_mem_of_hexChar? hx) (by simp)
  | case3 a b c d e f g h' cs x hx ih =>
    obtain ⟨w, hw, rfl⟩ := before_eq_ok_iff.mp h
    exact (ih hw).shorter ['\\', 'U', a, b, c, d, e, f, g, h'] [x]
      (by simpa using not_mem_of_hexChar? hx) (by simp)
  | case5 c cs _ _ x hx ih =>
    obtain ⟨w, hw, rfl⟩ := before_eq_ok_iff.mp h
    exact (ih hw).shorter ['\\', c] [x] (by simpa using ne_of_escaped? hx) (by simp)
  | case8 cs =>
    cases h
    exact ⟨[], [], 0, rfl, rfl, Nat.le_refl 0, .done⟩
  | case10 c cs _ _ _ hquote hc ih =>
    obtain ⟨w, hw, rfl⟩ := before_eq_ok_iff.mp h
    have hplain : IsPlainChar c := ⟨hquote, by simpa using hc⟩
    exact (ih hw).asIs hplain
  | case2 | case4 | case6 | case7 | case9 => cases h

theorem lastQuotes_eq (cs : List Char) :
    ∃ k rest, k ≤ 2 ∧ cs = List.replicate k '"' ++ rest ∧
      lastQuotes '"' cs = (List.replicate k '"', rest) := by
  fun_cases lastQuotes '"' cs with
  | case1 cs => exact ⟨2, cs, by omega, rfl, rfl⟩
  | case2 d cs hd => exact ⟨1, d :: cs, by omega, rfl, by simp⟩
  | case4 => exact ⟨1, [], by omega, rfl, rfl⟩
  | case3 c d cs hc => exact ⟨0, c :: d :: cs, by omega, rfl, by simp⟩
  | case5 c hc => exact ⟨0, [c], by omega, rfl, by simp⟩
  | case6 => exact ⟨0, [], by omega, rfl, rfl⟩

theorem isClosed_lastQuotes {p : Char → Prop} {cs v rest : List Char}
    (h : lastQuotes '"' cs = (v, rest)) : IsClosed p 3 2 ('"' :: '"' :: '"' :: cs) v rest := by
  obtain ⟨k, more, hk, rfl, heq⟩ := lastQuotes_eq cs
  obtain ⟨rfl, rfl⟩ := Prod.mk.inj (heq.symm.trans h)
  exact ⟨[], [], k, by rw [Nat.add_comm]; rfl, rfl, hk, .done⟩

theorem basicLines_isClosed {place : LinePlace} {cs v rest : List Char}
    (h : basicLines place cs = .ok (v, rest)) :
    IsClosed (fun _ => True) 3 2 cs v rest := by
  fun_induction basicLines place cs generalizing v with
  | case1 cs ih => exact (ih h).shorter ['\n'] [] (by decide) (by decide)
  | case14 _ cs _ _ _ _ _ ih =>
    exact (ih h).shorter ['\\', '\n'] [] (by decide) (by decide)
  | case2 c cs _ hc ih =>
    have hc : '[' ≠ c := by rintro rfl; cases hc
    exact (ih h).shorter [c] [] (by simpa using hc) (by simp)
  | case15 _ c cs _ _ _ _ _ _ hc ih =>
    have hc : '[' ≠ c := by rintro rfl; cases hc
    exact (ih h).shorter ['\\', c] [] (by simpa using hc) (by simp)
  | case19 place c cs _ _ _ _ _ _ _ _ hc ih =>
    have hc : '[' ≠ c := by rintro rfl; simp at hc
    exact (ih h).shorter [c] [] (by simpa using hc) (by simp)
  | case4 a b c d cs x hx ih | case6 a b c d cs x hx ih =>
    obtain ⟨w, hw, rfl⟩ := before_eq_ok_iff.mp h
    exact (ih hw).shorter ['\\', 'u', a, b, c, d] [x]
      (by simpa using not_mem_of_hexChar? hx) (by simp)
  | case8 a b c d e f g h' cs x hx ih | case10 a b c d e f g h' cs x hx ih =>
    obtain ⟨w, hw, rfl⟩ := before_eq_ok_iff.mp h
    exact (ih hw).shorter ['\\', 'U', a, b, c, d, e, f, g, h'] [x]
      (by simpa using not_mem_of_hexChar? hx) (by simp)
  | case16 _ c cs _ _ _ _ _ _ _ x hx ih =>
    obtain ⟨w, hw, rfl⟩ := before_eq_ok_iff.mp h
    exact (ih hw).shorter ['\\', c] [x] (by simpa using ne_of_escaped? hx) (by simp)
  | case12 cs | case13 cs => exact isClosed_lastQuotes (Except.ok.inj h)
  | case21 _ c cs _ _ _ _ _ _ _ _ _ _ ih =>
    obtain ⟨w, hw, rfl⟩ := before_eq_ok_iff.mp h
    exact (ih hw).asIs trivial
  | _ => cases h

/-! ## What a string takes up -/

/-- What holds of the part of a text that a string was read from, its quotes included. -/
structure TakenUp (taken v : List Char) : Prop where
  ends : ∃ start, taken = start ++ ['"']
  count_le : taken.count '[' ≤ v.count '['
  /-- It is longer than the string and two quotes, unless the string is plain. -/
  longer_or : v.length + 2 < taken.length ∨ taken = '"' :: (v ++ ['"']) ∧ IsPlain v

theorem basicString_inv {cs v rest : List Char} (h : basicString cs = .ok (v, rest)) :
    ∃ taken, '"' :: cs = taken ++ rest ∧ TakenUp taken v := by
  obtain ⟨source, w, k, rfl, rfl, hk, hs⟩ := basicString_isClosed h
  obtain rfl : k = 0 := Nat.le_zero.mp hk
  refine ⟨'"' :: (source ++ ['"']), by simp, ⟨'"' :: source, rfl⟩, ?_, ?_⟩
  · simpa [List.count_append] using hs.count_le
  · have := hs.length_le
    by_cases hlength : source.length ≤ w.length
    · obtain ⟨rfl, hplain⟩ := hs.eq_of_length hlength
      exact .inr ⟨by simp, by rwa [List.replicate_zero, List.append_nil]⟩
    · left
      simp only [List.length_append, List.length_cons, List.replicate_zero, List.length_nil]
      omega

theorem skipNewline_eq (cs : List Char) :
    ∃ newline, cs = newline ++ skipNewline cs ∧ '[' ∉ newline := by
  fun_cases skipNewline cs with
  | case1 cs => exact ⟨['\n'], rfl, by decide⟩
  | case2 => exact ⟨[], rfl, by decide⟩

/-- A string in several lines has three quotes on each side, and gives back at most two. -/
theorem basicLines_inv {cs v rest : List Char}
    (h : basicLines .inText (skipNewline cs) = .ok (v, rest)) :
    ∃ taken, '"' :: '"' :: '"' :: cs = taken ++ rest ∧ TakenUp taken v := by
  obtain ⟨newline, hcs, hnewline⟩ := skipNewline_eq cs
  obtain ⟨source, w, k, hsource, rfl, -, hs⟩ := basicLines_isClosed h
  have hends : '"' :: '"' :: '"' :: (newline ++ (source ++ List.replicate (3 + k) '"')) =
      ('"' :: '"' :: '"' :: (newline ++ (source ++ List.replicate (2 + k) '"'))) ++ ['"'] := by
    rw [show 3 + k = 2 + k + 1 by omega, List.replicate_succ']
    simp
  refine ⟨'"' :: '"' :: '"' :: (newline ++ (source ++ List.replicate (3 + k) '"')), ?_,
    ⟨_, hends⟩, ?_, .inl ?_⟩
  · rw [hcs, hsource]
    simp
  · simpa [List.count_append, List.count_replicate, List.count_eq_zero_of_not_mem hnewline]
      using hs.count_le
  · have := hs.length_le
    simp only [List.length_append, List.length_cons, List.length_replicate]
    omega

theorem string_inv {cs v rest : List Char} (h : string ('"' :: cs) = .ok (v, rest)) :
    ∃ taken, '"' :: cs = taken ++ rest ∧ TakenUp taken v := by
  by_cases hquotes : ∃ more, cs = '"' :: '"' :: more
  · obtain ⟨more, rfl⟩ := hquotes
    exact basicLines_inv h
  · rw [string] at h
    · exact basicString_inv h
    · rintro more rfl
      exact hquotes ⟨more, rfl⟩

/-- A text that comes back from between quotes is plain.  It is enough that what comes back is
no shorter and has no more opening brackets, if one of these stands before the next quote. -/
theorem string_written {t v gap more rest : List Char}
    (h : string ('"' :: (t ++ '"' :: (gap ++ more))) = .ok (v, rest)) (hgap : '"' ∉ gap)
    (hmore : more = [] ∨ '[' ∈ gap) (hlength : t.length ≤ v.length)
    (hcount : v.count '[' ≤ t.count '[') : t = v ∧ IsPlain v := by
  obtain ⟨taken, htaken, ⟨start, hstart⟩, hbrackets, hlonger⟩ := string_inv h
  have hsplit : '"' :: (t ++ ['"']) ++ (gap ++ more) = taken ++ rest := by simpa using htaken
  have hwithin : ∃ left, '"' :: (t ++ ['"']) = taken ++ left := by
    rcases List.append_eq_append_iff.mp hsplit with ⟨beyond, hbeyond, hgap'⟩ | ⟨left, hleft, -⟩
    · -- What is beyond the quote ends with another one, so the gap with its bracket is in it.
      rcases List.eq_nil_or_concat beyond with rfl | ⟨before, c, rfl⟩
      · exact ⟨[], by rw [hbeyond]; simp⟩
      · exfalso
        rw [List.concat_eq_append] at hbeyond hgap'
        obtain rfl : c = '"' := by
          have := hbeyond.symm.trans hstart
          rw [← List.append_assoc] at this
          exact List.singleton_inj.mp (List.append_inj' this rfl).2
        rcases List.append_eq_append_iff.mp hgap' with ⟨z, hz, hmore'⟩ | ⟨z, hz, -⟩
        · rcases hmore with rfl | hbracket
          · obtain ⟨rfl, -⟩ := List.nil_eq_append_iff.mp hmore'
            exact hgap (by rw [← List.append_nil gap, ← hz]; simp)
          · have := List.count_pos_iff.mpr hbracket
            rw [hbeyond, hz] at hbrackets
            simp [List.count_append] at hbrackets
            omega
        · exact hgap (by rw [hz]; simp)
    · exact ⟨left, hleft⟩
  obtain ⟨left, hleft⟩ := hwithin
  have hsize : t.length + 2 = taken.length + left.length := by
    rw [← List.length_append, ← hleft]; simp
  rcases hlonger with hlonger | ⟨rfl, hplain⟩
  · omega
  · simp only [List.length_append, List.length_cons, List.length_nil] at hsize
    obtain rfl : left = [] := List.length_eq_zero_iff.mp (by omega)
    have : t ++ ['"'] = v ++ ['"'] := by simpa using hleft
    exact ⟨List.append_cancel_right this, hplain⟩

end CronFire.Toml
