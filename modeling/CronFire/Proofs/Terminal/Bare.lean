import CronFire.Proofs.Fault
import CronFire.Proofs.Terminal.Codes
import CronFire.Proofs.Terminal.Literal
import CronFire.Proofs.Terminal.Wrapped
/-!
# Text without markup

A text is bare if no bracket in it begins a tag or stands behind a backslash.  Markup takes
nothing from a bare text, and from every other one a bracket or a backslash at least, so of the
texts that a user may have written only the bare ones without emoji codes are printed as they stand.
A picture may show more than its code, so the colons that show are counted first: pictures take some
of these away.

Results:
* `isBare_cons`: bare texts by their characters.
* `shown_of_isBare`, `sublist_of_shown`: what becomes of a bare text, and of one that is not.
* `strip_eq_self_iff`: both for whole texts.
* `exists_shownAs`, `verbatim_of_le_ink`: what is printed of a text, and what that tells about it.
-/
namespace CronFire.Markup

open CronFire.Terminal (ink ink_append ink_cons)

/-- What stands behind an opening bracket makes it the beginning of a tag. -/
def BeginsTag (cs : List Char) : Prop :=
  ∃ c body rest, cs = c :: body ++ ']' :: rest ∧ startsTag c = true ∧ '[' ∉ body ∧ ']' ∉ body

/-- No bracket begins a tag or stands behind a backslash. -/
def IsBare (cs : List Char) : Prop :=
  ∀ before after, cs = before ++ '[' :: after →
    before.getLast? ≠ some '\\' ∧ ¬ BeginsTag after

section
variable {cs ds body rest : List Char} {c : Char} {slashes : Nat} {opened : List String}
  {ps : List Piece}

/-! ## Where tags begin -/

theorem untilBracket_inv (h : untilBracket cs = some (body, rest)) :
    cs = body ++ ']' :: rest ∧ '[' ∉ body ∧ ']' ∉ body := by
  induction cs generalizing body with
  | nil => cases h
  | cons c cs ih =>
    rw [untilBracket] at h
    split at h
    · rename_i hc
      cases h
      exact ⟨by rw [hc]; rfl, List.not_mem_nil, List.not_mem_nil⟩
    · rename_i hclose
      split at h
      · cases h
      · rename_i hopen
        obtain ⟨⟨body', rest'⟩, hcs, heq⟩ := Option.map_eq_some_iff.1 h
        cases heq
        obtain ⟨rfl, hbody, hbody'⟩ := ih hcs
        exact ⟨rfl, by simp [hbody, Ne.symm hopen], by simp [hbody', Ne.symm hclose]⟩

theorem tagBody?_inv (h : tagBody? cs = some (body, rest)) :
    cs = body ++ ']' :: rest ∧ BeginsTag cs := by
  obtain ⟨hstarts, hbody⟩ := Option.ite_none_right_eq_some.1 h
  obtain ⟨rfl, hopen, hclose⟩ := untilBracket_inv hbody
  cases body with
  | nil => cases hstarts
  | cons c body =>
    rw [List.mem_cons, not_or] at hopen hclose
    exact ⟨rfl, c, body, rest, rfl, hstarts, hopen.2, hclose.2⟩

theorem not_beginsTag_of_none (h : tagBody? cs = none) : ¬ BeginsTag cs := by
  rintro ⟨c, body, rest, rfl, hc, hopen, hclose⟩
  have hne : ∀ x, startsTag x = false → x ≠ c := by
    rintro x hx rfl
    rw [hc] at hx
    cases hx
  have hopening : '[' ∉ c :: body :=
    List.not_mem_cons_of_ne_of_not_mem (hne '[' (by decide)) hopen
  have hclosing : ']' ∉ c :: body :=
    List.not_mem_cons_of_ne_of_not_mem (hne ']' (by decide)) hclose
  have hfound := untilBracket_append hopening hclosing rest
  have hstarts : (c :: body ++ ']' :: rest).head?.any startsTag = true := hc
  rw [tagBody?, if_pos hstarts, hfound] at h
  cases h

instance (cs : List Char) : Decidable (BeginsTag cs) :=
  match h : tagBody? cs with
  | some _ => .isTrue (tagBody?_inv h).2
  | none => .isFalse (not_beginsTag_of_none h)

/-- Bare texts by their characters. -/
theorem isBare_cons : IsBare (c :: cs) ↔
    (c = '[' → ¬ BeginsTag cs) ∧ (c = '\\' → cs.head? ≠ some '[') ∧ IsBare cs := by
  constructor
  · intro h
    refine ⟨?_, ?_, fun before after hcs => ?_⟩
    · rintro rfl
      exact (h [] cs rfl).2
    · rintro rfl hhead
      obtain ⟨after, rfl⟩ := List.head?_eq_some_iff.1 hhead
      exact (h ['\\'] after rfl).1 rfl
    · obtain ⟨hlast, htag⟩ := h (c :: before) after (by rw [hcs]; rfl)
      refine ⟨fun hbefore => hlast ?_, htag⟩
      rw [List.getLast?_cons, hbefore]
      rfl
  · rintro ⟨hopen, hslash, hcs⟩ before after heq
    cases before with
    | nil =>
      obtain ⟨rfl, rfl⟩ := List.cons.inj heq
      exact ⟨nofun, hopen rfl⟩
    | cons b before =>
      obtain ⟨rfl, rfl⟩ := List.cons.inj heq
      obtain ⟨hlast, htag⟩ := hcs before after rfl
      refine ⟨fun hc => ?_, htag⟩
      rw [List.getLast?_cons, Option.some.injEq] at hc
      cases before with
      | nil => exact hslash hc rfl
      | cons d before =>
        rw [List.getLast?_eq_some_getLast (List.cons_ne_nil d before)] at hc hlast
        exact hlast (congrArg some hc)

theorem isBare_nil : IsBare [] := fun before after h => by simp at h

instance decidableIsBare : (cs : List Char) → Decidable (IsBare cs)
  | [] => .isTrue isBare_nil
  | _ :: cs => have := decidableIsBare cs; decidable_of_iff _ isBare_cons.symm

theorem isBare_backslashes_append (hc : c ≠ '[') :
    IsBare (backslashes slashes ++ c :: cs) ↔ IsBare (c :: cs) := by
  induction slashes with
  | zero => rfl
  | succ slashes ih =>
    rw [backslashes, List.replicate_succ, List.cons_append, isBare_cons, ← backslashes, ih]
    refine (and_iff_right fun h => absurd h (by decide)).trans (and_iff_right fun _ hhead => ?_)
    cases slashes with
    | zero => exact hc (Option.some.inj hhead)
    | succ slashes => exact absurd (Option.some.inj hhead) (by decide)

theorem isBare_bracket : IsBare (backslashes slashes ++ '[' :: cs) ↔
    slashes = 0 ∧ ¬ BeginsTag cs ∧ IsBare cs := by
  cases slashes with
  | zero =>
    rw [backslashes, List.replicate_zero, List.nil_append, isBare_cons]
    simp
  | succ slashes =>
    refine iff_of_false (fun h => ?_) (by simp)
    refine (h (backslashes (slashes + 1)) cs rfl).1 ?_
    rw [backslashes, List.replicate_succ', List.getLast?_concat]

/-! ## What is shown -/

theorem backslashes_succ_append (slashes : Nat) (cs : List Char) :
    backslashes (slashes + 1) ++ cs = backslashes slashes ++ '\\' :: cs := by
  rw [backslashes, List.replicate_succ', List.append_assoc]
  rfl

/-- A tag that closes nothing is an error whatever is shown; every other one only ends a stretch. -/
theorem shown_tag (opened : List String) (body : List Char) :
    (∀ f before ps, shown f opened before (.tag body :: ps) = .error ⟨⟩) ∨
      ∃ opened', ∀ f before ps, shown f opened before (.tag body :: ps) =
        (shown f opened' [] ps).map (f before ++ ·) := by
  by_cases hslash : ∃ name, body.takeWhile (· ≠ '=') = '/' :: name
  · obtain ⟨name, hname⟩ := hslash
    cases hclose : close? name opened with
    | none => exact .inl fun f before ps => by simp only [shown, hname, hclose]
    | some opened' => exact .inr ⟨opened', fun f before ps => by simp only [shown, hname, hclose]⟩
  · refine .inr ⟨tagName (body.takeWhile (· ≠ '=')) :: opened, fun f before ps => ?_⟩
    rw [shown]
    split
    · rename_i name hname
      exact absurd ⟨name, hname⟩ hslash
    · rfl

/-- What is shown consists of stretches of text, each changed on its own; which stretches these are
does not depend on the change. -/
theorem shown_cases (f : List Char → List Char) (opened : List String) (before : List Char)
    (ps : List Piece) :
    (shown f opened before ps = .error ⟨⟩ ∧ shown id opened before ps = .error ⟨⟩) ∨
      ∃ stretches : List (List Char), shown f opened before ps = .ok (stretches.flatMap f) ∧
        shown id opened before ps = .ok stretches.flatten := by
  induction ps generalizing opened before with
  | nil => exact .inr ⟨[before], by simp [shown], by simp [shown]⟩
  | cons p ps ih =>
    cases p with
    | plain cs =>
      rw [shown, shown]
      exact ih opened (before ++ cs)
    | apart cs =>
      rw [shown, shown]
      rcases ih opened [] with ⟨hf, hid⟩ | ⟨stretches, hf, hid⟩
      · rw [hf, hid]
        exact .inl ⟨rfl, rfl⟩
      · rw [hf, hid]
        exact .inr ⟨before :: cs :: stretches, by simp [Except.map], by simp [Except.map]⟩
    | tag body =>
      rcases shown_tag opened body with herror | ⟨opened', htag⟩
      · exact .inl ⟨herror f before ps, herror id before ps⟩
      · rw [htag, htag]
        rcases ih opened' [] with ⟨hf, hid⟩ | ⟨stretches, hf, hid⟩
        · rw [hf, hid]
          exact .inl ⟨rfl, rfl⟩
        · rw [hf, hid]
          exact .inr ⟨before :: stretches, rfl, rfl⟩

theorem shown_append (before : List Char) : shown id opened before ps =
    (shown id opened [] ps).map (before ++ ·) := by
  induction ps generalizing before with
  | nil => simp [shown, Except.map]
  | cons p ps ih =>
    cases p with
    | plain cs =>
      rw [shown, shown, ih, ih ([] ++ cs)]
      cases shown id opened [] ps <;> simp [Except.map]
    | apart cs =>
      rw [shown, shown]
      cases shown id opened [] ps <;> simp [Except.map]
    | tag body =>
      rcases shown_tag opened body with herror | ⟨opened', htag⟩
      · rw [herror, herror]
        rfl
      · rw [htag, htag]
        cases shown id opened' [] ps <;> simp [Except.map]

theorem shown_plain (h : shown id opened [] (.plain cs :: ps) = .ok ds) :
    ∃ more, shown id opened [] ps = .ok more ∧ ds = cs ++ more := by
  rw [shown, shown_append] at h
  obtain ⟨more, hmore, rfl⟩ := map_eq_ok_iff.1 h
  exact ⟨more, hmore, rfl⟩

theorem shown_apart (h : shown id opened [] (.apart cs :: ps) = .ok ds) :
    ∃ more, shown id opened [] ps = .ok more ∧ ds = cs ++ more := by
  obtain ⟨more, hmore, rfl⟩ := map_eq_ok_iff.1 h
  exact ⟨more, hmore, rfl⟩

theorem ink_backslashes (slashes : Nat) : ink (backslashes slashes) = slashes := by
  induction slashes with
  | zero => rfl
  | succ slashes ih =>
    rw [backslashes, List.replicate_succ, ink_cons, ← backslashes, ih]
    rfl

theorem backslashes_sublist {m n : Nat} (h : m ≤ n) :
    (backslashes m).Sublist (backslashes n) := (List.replicate_sublist_replicate _).2 h

/-- Of a tag behind backslashes half of these are left, and the tag itself only if it is behind an
odd number of them. -/
theorem shown_bracketed (h : shown id opened [] (.apart (backslashes (slashes / 2)) ::
      (if slashes % 2 = 1 then .apart ('[' :: body ++ [']']) else .tag body) :: ps) = .ok ds) :
    ∃ opened' kept more, shown id opened' [] ps = .ok more ∧
      ds = backslashes (slashes / 2) ++ (kept ++ more) ∧
      (kept = [] ∨ slashes % 2 = 1 ∧ kept = '[' :: body ++ [']']) := by
  obtain ⟨after, hafter, rfl⟩ := shown_apart h
  split at hafter
  · rename_i hodd
    obtain ⟨more, hmore, rfl⟩ := shown_apart hafter
    exact ⟨opened, _, more, hmore, rfl, .inr ⟨hodd, rfl⟩⟩
  · rcases shown_tag opened body with herror | ⟨opened', htag⟩
    · cases (herror id [] ps).symm.trans hafter
    · rw [htag] at hafter
      obtain ⟨more, hmore, rfl⟩ := map_eq_ok_iff.1 hafter
      exact ⟨opened', [], more, hmore, rfl, .inl rfl⟩

/-- What is left of a tag behind backslashes is less than there was, also where the tag is left. -/
theorem bracketed_sublist {kept more : List Char} (hmore : more.Sublist rest)
    (hkept : kept = [] ∨ slashes % 2 = 1 ∧ kept = '[' :: body ++ [']']) :
    (backslashes (slashes / 2) ++ (kept ++ more)).Sublist
        (backslashes slashes ++ ('[' :: body ++ [']'] ++ rest)) ∧
      ink (backslashes (slashes / 2) ++ (kept ++ more)) <
        ink (backslashes slashes ++ ('[' :: body ++ [']'] ++ rest)) := by
  have hsub : kept.Sublist ('[' :: body ++ [']']) := by
    rcases hkept with rfl | ⟨-, rfl⟩
    · exact List.nil_sublist _
    · exact List.Sublist.refl _
  have hrest : ink more ≤ ink rest := hmore.countP_le
  have hbracket : 1 ≤ ink ('[' :: body ++ [']']) := by
    rw [List.cons_append, ink_cons]
    exact Nat.le_add_left 1 _
  refine ⟨(backslashes_sublist (Nat.div_le_self slashes 2)).append (hsub.append hmore), ?_⟩
  rw [ink_append, ink_append, ink_append, ink_append, ink_backslashes, ink_backslashes]
  rcases hkept with rfl | ⟨hodd, rfl⟩
  · rw [Terminal.ink_nil]
    omega
  · omega

/-- Markup takes characters away and adds none, and it takes away a bracket or a backslash unless
the text is bare. -/
theorem sublist_of_shown (h : shown id opened [] (pieces slashes cs) = .ok ds) :
    ds.Sublist (backslashes slashes ++ cs) ∧
      (¬ IsBare (backslashes slashes ++ cs) → ink ds < ink (backslashes slashes ++ cs)) := by
  fun_induction pieces slashes cs generalizing opened ds with
  | case1 slashes =>
    obtain ⟨more, hmore, rfl⟩ := shown_plain h
    cases hmore
    refine ⟨List.Sublist.refl _, fun hbare => absurd (fun before after heq => ?_) hbare⟩
    -- a bracket would be one of the backslashes
    have hmem : '[' ∈ backslashes slashes := by
      rw [List.append_nil] at heq
      simp [heq]
    cases List.eq_of_mem_replicate hmem
  | case2 slashes cs ih =>
    rw [← backslashes_succ_append]
    exact ih h
  | case3 slashes cs body rest htag _ _ ih =>
    obtain ⟨opened', kept, more, hmore, rfl, hkept⟩ := shown_bracketed h
    obtain ⟨hsublist, -⟩ := ih hmore
    rw [backslashes, List.replicate_zero, List.nil_append] at hsublist
    obtain ⟨rfl, -⟩ := tagBody?_inv htag
    have hsplit : '[' :: (body ++ ']' :: rest) = '[' :: body ++ [']'] ++ rest := by simp
    obtain ⟨hleft, hless⟩ := bracketed_sublist hsublist hkept
    rw [hsplit]
    exact ⟨hleft, fun _ => hless⟩
  | case4 slashes cs htag _ ih =>
    obtain ⟨more, hmore, rfl⟩ := shown_plain h
    obtain ⟨hsublist, hink⟩ := ih hmore
    rw [backslashes, List.replicate_zero, List.nil_append] at hsublist hink
    have hmore : ink more ≤ ink cs := hsublist.countP_le
    constructor
    · rw [List.append_assoc]
      exact (backslashes_sublist (Nat.sub_le slashes 1)).append (hsublist.cons_cons '[')
    · intro hbare
      rw [isBare_bracket] at hbare
      rw [ink_append, ink_append, ink_append, ink_backslashes, ink_backslashes, ink_cons, ink_cons]
      by_cases hslashes : slashes = 0
      · have := hink fun hcs => hbare ⟨hslashes, not_beginsTag_of_none htag, hcs⟩
        simp only [Terminal.ink_nil]
        omega
      · simp only [Terminal.ink_nil]
        omega
  | case5 slashes c cs hslash hopen ih =>
    obtain ⟨more, hmore, rfl⟩ := shown_plain h
    obtain ⟨hsublist, hink⟩ := ih hmore
    rw [backslashes, List.replicate_zero, List.nil_append] at hsublist hink
    constructor
    · rw [List.append_assoc]
      exact (List.Sublist.refl _).append (hsublist.cons_cons c)
    · intro hbare
      have := hink fun hcs => hbare ((isBare_backslashes_append hopen).2
        (isBare_cons.2 ⟨fun hc => absurd hc hopen, fun hc => absurd hc hslash, hcs⟩))
      rw [ink_append, ink_append, ink_append, ink_cons, ink_cons, Terminal.ink_nil]
      omega

/-- A bare text is one stretch. -/
theorem shown_of_isBare {f : List Char → List Char} {before : List Char}
    (h : IsBare (backslashes slashes ++ cs)) : shown f opened before (pieces slashes cs) =
      .ok (f (before ++ (backslashes slashes ++ cs))) := by
  fun_induction pieces slashes cs generalizing before with
  | case1 slashes => simp [shown]
  | case2 slashes cs ih =>
    rw [← backslashes_succ_append] at h ⊢
    exact ih h
  | case3 slashes cs body rest htag _ _ ih =>
    exact absurd (tagBody?_inv htag).2 (isBare_bracket.1 h).2.1
  | case4 slashes cs htag _ ih =>
    obtain ⟨rfl, -, hcs⟩ := isBare_bracket.1 h
    rw [shown, ih hcs]
    simp [backslashes]
  | case5 slashes c cs hslash hopen ih =>
    have hcs := (isBare_cons.1 ((isBare_backslashes_append hopen).1 h)).2.2
    rw [shown, ih hcs]
    simp [backslashes]

theorem strip_of_isBare {f : List Char → List Char} (h : IsBare cs) : strip f cs = .ok (f cs) := by
  have hbare : IsBare (backslashes 0 ++ cs) := h
  exact shown_of_isBare hbare

/-- Markup takes nothing exactly from a bare text. -/
theorem strip_eq_self_iff : strip id cs = .ok cs ↔ IsBare cs := by
  constructor
  · intro h
    by_contra hbare
    exact Nat.lt_irrefl _ ((sublist_of_shown h).2 hbare)
  · exact strip_of_isBare

end

end CronFire.Markup

namespace CronFire.Terminal

open CronFire.Markup (IsBare)

/-! ## What is shown with pictures -/

theorem flatMap_replace_eq_or (emoji : Emoji) (stretches : List (List Char)) :
    stretches.flatMap emoji.replace = stretches.flatten ∨
      colons (stretches.flatMap emoji.replace) + 2 ≤ colons stretches.flatten := by
  induction stretches with
  | nil => exact .inl rfl
  | cons cs stretches ih =>
    rw [List.flatMap_cons, List.flatten_cons, colons_append, colons_append]
    rcases emoji.replace_eq_self_or cs with hcs | hcs <;> rcases ih with hrest | hrest
    · exact .inl (by rw [hcs, hrest])
    · exact .inr (by rw [hcs]; omega)
    · exact .inr (by rw [hrest]; omega)
    · exact .inr (by omega)

section
variable {emoji : Emoji} {cs ds front : List Char} {columns : Nat} {text : String}

/-- The terminal takes the text for itself: it finds neither markup nor emoji codes in it. -/
structure Verbatim (emoji : Emoji) (cs : List Char) : Prop where
  bare : IsBare cs
  codes : emoji.replace cs = cs

instance (emoji : Emoji) (cs : List Char) : Decidable (Verbatim emoji cs) :=
  decidable_of_iff (IsBare cs ∧ emoji.replace cs = cs)
    ⟨fun ⟨hbare, hcodes⟩ => ⟨hbare, hcodes⟩, fun h => ⟨h.bare, h.codes⟩⟩

/-- A blank in front makes no difference. -/
theorem verbatim_blank : Verbatim emoji (' ' :: cs) ↔ Verbatim emoji cs := by
  have hcodes : emoji.replace (' ' :: cs) = ' ' :: cs ↔ emoji.replace cs = cs := by
    rw [Emoji.replace_cons (by decide), List.cons_inj_right]
  have hbare : IsBare (' ' :: cs) ↔ IsBare cs := by
    rw [Markup.isBare_cons]
    simp
  exact ⟨fun h => ⟨hbare.1 h.bare, hcodes.1 h.codes⟩, fun h => ⟨hbare.2 h.bare, hcodes.2 h.codes⟩⟩

/-- With pictures the text that markup leaves is the same, or it has lost colons; no blank in it is
new. -/
theorem exists_strip (h : Markup.strip emoji.replace cs = .ok ds) :
    ∃ kept, Markup.strip id cs = .ok kept ∧ (ds = kept ∨ colons ds + 2 ≤ colons kept) ∧
      ∀ c ∈ ds, Text.isBlank c = true → c ∈ kept := by
  rcases Markup.shown_cases emoji.replace [] [] (Markup.pieces 0 cs) with
    ⟨herror, -⟩ | ⟨stretches, hreplaced, hkept⟩
  · cases herror.symm.trans h
  · obtain rfl := Except.ok.inj (hreplaced.symm.trans h)
    refine ⟨stretches.flatten, hkept, flatMap_replace_eq_or emoji stretches, fun c hc hblank => ?_⟩
    obtain ⟨stretch, hstretch, hc⟩ := List.mem_flatMap.1 hc
    exact List.mem_flatten_of_mem hstretch (Emoji.mem_of_mem_replace hc hblank)

theorem ink_filter_le (p : Char → Bool) (cs : List Char) : ink (cs.filter p) ≤ ink cs :=
  List.filter_sublist.countP_le

theorem ink_filter_lt {p : Char → Bool} {c : Char} (hmem : c ∈ cs)
    (hblank : Text.isBlank c = false) (hp : p c = false) : ink (cs.filter p) < ink cs := by
  obtain ⟨before, after, rfl⟩ := List.append_of_mem hmem
  have hbefore := ink_filter_le p before
  have hafter := ink_filter_le p after
  rw [List.filter_append, List.filter_cons_of_neg (by simp [hp]), ink_append, ink_append, ink_cons,
    hblank]
  simp only [Bool.false_eq_true, if_false]
  omega

section
variable {shown : String} (hcolumns : 2 ≤ columns)
  (hstrip : Markup.strip emoji.replace text.toList =
    (Markup.strip emoji.replace cs).map (front ++ ·))
  (hblanks : PlainBlanks (front ++ cs))
include hcolumns hstrip hblanks

/-- What shows of a text that comes to `front` and then to what markup leaves of `cs`. -/
theorem exists_shown (h : printed emoji columns text = .ok shown) :
    ∃ kept ds, Markup.strip id cs = .ok kept ∧ Markup.strip emoji.replace cs = .ok ds ∧
      (ds = kept ∨ colons ds + 2 ≤ colons kept) ∧
      colons shown.toList = colons front + colons ds ∧
      ink shown.toList = ink (front.filter (!isDropped ·)) + ink (ds.filter (!isDropped ·)) := by
  obtain ⟨_, hleft, rfl⟩ := map_eq_ok_iff.1 h
  rw [hstrip] at hleft
  obtain ⟨ds, hds, rfl⟩ := map_eq_ok_iff.1 hleft
  obtain ⟨kept, hkept, hsame, hmem⟩ := exists_strip hds
  have hplain : PlainBlanks (front ++ ds) := by
    intro c hc hblank
    refine hblanks c (List.mem_append.2 ((List.mem_append.1 hc).imp_right fun hc => ?_)) hblank
    exact (Markup.sublist_of_shown hkept).1.subset (hmem c hc hblank)
  rw [colons_screenLines hcolumns hplain, ink_screenLines hcolumns hplain, colons_append,
    List.filter_append, ink_append]
  exact ⟨kept, ds, hkept, hds, hsame, rfl, rfl⟩

theorem colons_printed_le (h : printed emoji columns text = .ok shown) :
    colons shown.toList ≤ colons (front ++ cs) := by
  obtain ⟨kept, ds, hkept, -, hsame, hcolons, -⟩ := exists_shown hcolumns hstrip hblanks h
  have hsub : colons kept ≤ colons cs := (Markup.sublist_of_shown hkept).1.countP_le
  have hds : colons ds ≤ colons kept := by
    rcases hsame with rfl | hless
    · exact Nat.le_refl _
    · omega
  rw [hcolons, colons_append]
  omega

section
variable (h : printed emoji columns text = .ok shown)
  (hcolons : colons (front ++ cs) ≤ colons shown.toList)
include h hcolons

/-- If all colons show, no picture does. -/
theorem exists_shown_of_colons : ∃ kept, Markup.strip id cs = .ok kept ∧
    Markup.strip emoji.replace cs = .ok kept ∧
    ink shown.toList = ink (front.filter (!isDropped ·)) + ink (kept.filter (!isDropped ·)) := by
  obtain ⟨kept, ds, hkept, hds, hsame, hshown, hink⟩ := exists_shown hcolumns hstrip hblanks h
  have hsub : colons kept ≤ colons cs := (Markup.sublist_of_shown hkept).1.countP_le
  rw [hshown, colons_append] at hcolons
  obtain rfl := hsame.resolve_right (by omega)
  exact ⟨ds, hkept, hds, hink⟩

/-- No more shows then than there is. -/
theorem ink_printed_le : ink shown.toList ≤ ink (front ++ cs) := by
  obtain ⟨kept, hkept, -, hink⟩ := exists_shown_of_colons hcolumns hstrip hblanks h hcolons
  have hsub : ink kept ≤ ink cs := (Markup.sublist_of_shown hkept).1.countP_le
  have hfront := ink_filter_le (!isDropped ·) front
  have hleft := ink_filter_le (!isDropped ·) kept
  rw [hink, ink_append]
  omega

/-- If all shows, the terminal took the text for itself, and none of its characters is dropped. -/
theorem verbatim_of_le_ink (hall : ink (front ++ cs) ≤ ink shown.toList) :
    Verbatim emoji cs ∧ Kept cs := by
  obtain ⟨kept, hkept, hreplaced, hink⟩ := exists_shown_of_colons hcolumns hstrip hblanks h hcolons
  have hfront := ink_filter_le (!isDropped ·) front
  have hleft := ink_filter_le (!isDropped ·) kept
  rw [hink, ink_append] at hall
  have hbare : IsBare cs := by
    by_contra hbare
    have hlt : ink kept < ink cs := (Markup.sublist_of_shown hkept).2 hbare
    omega
  obtain rfl : kept = cs := Except.ok.inj (hkept.symm.trans (Markup.strip_eq_self_iff.2 hbare))
  refine ⟨⟨hbare, Except.ok.inj ((Markup.strip_of_isBare hbare).symm.trans hreplaced)⟩,
    fun c hc => ?_⟩
  by_contra hdropped
  have hdropped : isDropped c = true := by simpa using hdropped
  have hblank : Text.isBlank c = false := by
    by_contra hblank
    have hspace := hblanks c (List.mem_append_right _ hc) (by simpa using hblank)
    rw [hspace] at hdropped
    cases hdropped
  have hlt := ink_filter_lt (p := (!isDropped ·)) hc hblank (by simp [hdropped])
  omega

end

/-- A text that is taken for itself is shown as it stands, behind what is in front of it. -/
theorem exists_shownAs (hfront : Kept front) (hverbatim : Verbatim emoji cs) (hkept : Kept cs) :
    ∃ shown, printed emoji columns text = .ok shown ∧ ShownAs columns (front ++ cs) shown := by
  have hprinted : printed emoji columns text =
      .ok (stack (screenLines columns (front ++ cs))) := by
    rw [printed, hstrip, Markup.strip_of_isBare hverbatim.bare, hverbatim.codes]
    rfl
  exact ⟨_, hprinted, shownAs_screenLines hcolumns hblanks
    (List.forall_mem_append.2 ⟨hfront, hkept⟩)⟩

end

end

end CronFire.Terminal
