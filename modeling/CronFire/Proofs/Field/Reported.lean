import CronFire.Proofs.Field.Overlong
/-!
# The faults that are reported

What is reported for a part that is no part of the grammar.  The checks come in a fixed order: a
missing part, nothing before the slash, the step, then the value or the ends of a range from the
left, and last whether a single value may have the step.  Each check has its fault and each fault
its kind, so a part has one fault at most, that of the first check it does not pass.

Results:
* `readPart_of_partFault`, `partFault_of_readPart`: the fault that is reported for a part.
* `PartFault.unique`: a part has one fault at most.
-/
namespace CronFire

open Text

/-- One ASCII digit or more, and nothing else. -/
def IsDigits (cs : List Char) : Prop := cs ≠ [] ∧ ∀ c ∈ cs, c.isDigit = true

/-- What is reported for a text that is no value, with its kind.  A text that begins with a digit
can only be a number, and any other only a name. -/
inductive ValueFault (d : Domain) : List Char → FaultKind → Fault → Prop
  | missing : ValueFault d [] .malformed .missingValue
  | notANumber {c : Char} {cs : List Char} : c.isDigit = true → ¬ IsDigits (c :: cs) →
      ValueFault d (c :: cs) .malformed (.notANumber (String.ofList (c :: cs)))
  | outOfRange {cs : List Char} {n : Nat} : IsNumeral cs n → ¬ (d.minimum ≤ n ∧ n ≤ d.maximum) →
      ValueFault d cs .outOfRange (.outOfRange n d.minimum d.maximum)
  | notAValue {c : Char} {cs : List Char} : ¬ c.isDigit = true → d.names = [] →
      ValueFault d (c :: cs) .malformed
        (.notAValue (String.ofList (c :: cs)) d.minimum d.maximum)
  | unknownName {c : Char} {cs : List Char} : ¬ c.isDigit = true → d.names ≠ [] →
      (∀ name ∈ d.names, ¬ Begins (c :: cs) name) →
      ValueFault d (c :: cs) .unknownName (.unknownName (String.ofList (c :: cs)) d.names)

/-- What is reported for the text before the slash of a part, with its kind, when the step is one
that can be read.  The first dash makes a range, unless the text begins with it. -/
inductive BodyFault (d : Domain) (step : Nat) : List Char → FaultKind → Fault → Prop
  | first {v w : List Char} {kind : FaultKind} {fault : Fault} : v ≠ [] → '-' ∉ v →
      ValueFault d v kind fault → BodyFault d step (v ++ '-' :: w) kind fault
  | second {v w : List Char} {a : Int} {kind : FaultKind} {fault : Fault} : '-' ∉ v →
      IsValue d v a → ValueFault d w kind fault → BodyFault d step (v ++ '-' :: w) kind fault
  | value {v : List Char} {kind : FaultKind} {fault : Fault} : v ≠ ['*'] →
      ('-' ∈ v → v.head? = some '-') → ValueFault d v kind fault → BodyFault d step v kind fault
  | step {v : List Char} {a : Int} : IsValue d v a → step ≠ 0 → step ≠ 1 →
      BodyFault d step v .malformed (.stepWithoutRange (String.ofList v) step)

/-- What is reported for a part, with its kind.  Without a slash the step is 1. -/
inductive PartFault (d : Domain) : List Char → FaultKind → Fault → Prop
  | empty : PartFault d [] .malformed .emptyPart
  | slash {after : List Char} :
      PartFault d ('/' :: after) .malformed (.nothingBeforeSlash (String.ofList ('/' :: after)))
  | step {before after : List Char} : before ≠ [] → '/' ∉ before → ¬ IsDigits after →
      PartFault d (before ++ '/' :: after) .malformed (.badStep (String.ofList after))
  | alone {body : List Char} {kind : FaultKind} {fault : Fault} : body ≠ [] → '/' ∉ body →
      BodyFault d 1 body kind fault → PartFault d body kind fault
  | stepped {body n : List Char} {step : Nat} {kind : FaultKind} {fault : Fault} : body ≠ [] →
      '/' ∉ body → IsNumeral n step → BodyFault d step body kind fault →
      PartFault d (body ++ '/' :: n) kind fault

/-! ## Kinds -/

section
variable {d : Domain} {text : List Char} {kind : FaultKind} {fault : Fault} {step : Nat}

theorem ValueFault.kind_eq (h : ValueFault d text kind fault) : fault.kind = kind := by
  cases h <;> rfl

theorem BodyFault.kind_eq (h : BodyFault d step text kind fault) : fault.kind = kind := by
  cases h with
  | first _ _ hv => exact hv.kind_eq
  | second _ _ hw => exact hw.kind_eq
  | value _ _ hv => exact hv.kind_eq
  | step _ _ _ => rfl

theorem PartFault.kind_eq (h : PartFault d text kind fault) : fault.kind = kind := by
  cases h with
  | empty => rfl
  | slash => rfl
  | step _ _ _ => rfl
  | alone _ _ hb => exact hb.kind_eq
  | stepped _ _ _ hb => exact hb.kind_eq

end

namespace Token

/-! ## Values and steps -/

theorem readNumeral_eq_notDigits_iff {text : List Char} (h : HasNoBlank text) :
    readNumeral text = .error .notDigits ↔ ¬ IsDigits text := by
  unfold readNumeral IsDigits
  simp only [dropFinalNewline_of_hasNoBlank h]
  split
  · rename_i hbad
    refine iff_of_true rfl fun hx => ?_
    simp [hx.1, List.all_eq_true.2 hx.2] at hbad
  · rename_i hgood
    refine iff_of_false (by split <;> nofun) (not_not.2 ?_)
    simpa using hgood

theorem readStep_eq_reported_iff {text : List Char} (h : HasNoBlank text) {fault : Fault} :
    readStep text = .error (.reported fault) ↔
      ¬ IsDigits text ∧ fault = .badStep (String.ofList text) := by
  unfold readStep
  rw [← readNumeral_eq_notDigits_iff h]
  split
  · rename_i hr; simp [hr, reject, eq_comm]
  · rename_i hr; simp [hr]
  · rename_i hr; simp [hr]

section
variable {d : Domain} {c : Char} {cs text : List Char} {kind : FaultKind} {fault : Fault}

theorem readValue_of_isDigit (h : HasNoBlank (c :: cs)) (hc : c.isDigit = true) :
    readValue d (c :: cs) =
      match readNumeral (c :: cs) with
      | .error .notDigits => reject (.notANumber (String.ofList (c :: cs)))
      | .error .tooLong => .error .numeralTooLong
      | .ok value =>
        if value < d.minimum || d.maximum < value then
          reject (.outOfRange value d.minimum d.maximum)
        else .ok value := by
  have hblank : isAllBlank (c :: cs) ≠ true := by simp [isAllBlank_of_hasNoBlank h]
  unfold readValue
  exact (if_neg hblank).trans (if_pos hc)

theorem readValue_of_not_isDigit (h : HasNoBlank (c :: cs)) (hc : ¬ c.isDigit = true) :
    readValue d (c :: cs) =
      if d.names.isEmpty then reject (.notAValue (String.ofList (c :: cs)) d.minimum d.maximum)
      else
        match nameIndex? d.names (c :: cs) with
        | some i => .ok (d.minimum + i)
        | none => reject (.unknownName (String.ofList (c :: cs)) d.names) := by
  have hblank : isAllBlank (c :: cs) ≠ true := by simp [isAllBlank_of_hasNoBlank h]
  unfold readValue
  exact (if_neg hblank).trans (if_neg hc)

theorem nameIndex?_eq_none_iff {names : List String} :
    nameIndex? names text = none ↔ ∀ name ∈ names, ¬ Begins text name := by
  unfold nameIndex? Begins
  rw [List.findIdx?_eq_none_iff]
  simp only [← List.isPrefixOf_iff_prefix, Bool.not_eq_true]

theorem readValue_of_valueFault (hv : ValueFault d text kind fault) (h : HasNoBlank text) :
    readValue d text = .error (.reported fault) := by
  cases hv with
  | missing => rfl
  | notANumber hc hdigits =>
    rw [readValue_of_isDigit h hc, (readNumeral_eq_notDigits_iff h).2 hdigits]
    rfl
  | @outOfRange _ n hn hout =>
    obtain ⟨c, cs, rfl⟩ := List.exists_cons_of_ne_nil hn.1
    rw [readValue_of_isDigit h (hn.2.1 c List.mem_cons_self), (readNumeral_eq_ok_iff h).2 hn]
    have hrange : ((n : Int) < d.minimum || d.maximum < n) = true := by
      simp only [Bool.or_eq_true, decide_eq_true_eq]
      omega
    simp only [hrange, if_true, reject]
  | notAValue hc hnames =>
    rw [readValue_of_not_isDigit h hc, if_pos (List.isEmpty_iff.2 hnames)]
    rfl
  | unknownName hc hnames hno =>
    rw [readValue_of_not_isDigit h hc, if_neg (by simpa using hnames),
      nameIndex?_eq_none_iff.2 hno]
    rfl

theorem valueFault_of_readValue (h : HasNoBlank text)
    (hr : readValue d text = .error (.reported fault)) : ∃ kind, ValueFault d text kind fault := by
  cases text with
  | nil =>
    cases hr
    exact ⟨_, .missing⟩
  | cons c cs =>
    by_cases hc : c.isDigit = true
    · rw [readValue_of_isDigit h hc] at hr
      split at hr
      · rename_i hnum
        cases hr
        exact ⟨_, .notANumber hc ((readNumeral_eq_notDigits_iff h).1 hnum)⟩
      · cases hr
      · rename_i n hnum
        split at hr
        · rename_i hrange
          cases hr
          refine ⟨_, .outOfRange ((readNumeral_eq_ok_iff h).1 hnum) ?_⟩
          simp only [Bool.or_eq_true, decide_eq_true_eq] at hrange
          omega
        · cases hr
    · rw [readValue_of_not_isDigit h hc] at hr
      split at hr
      · rename_i hnames
        cases hr
        exact ⟨_, .notAValue hc (List.isEmpty_iff.1 hnames)⟩
      · rename_i hnames
        split at hr
        · cases hr
        · rename_i hno
          cases hr
          exact ⟨_, .unknownName hc (by simpa using hnames) (nameIndex?_eq_none_iff.1 hno)⟩

end

/-! ## Parts -/

/-- The first dash makes no range exactly if the text begins with it, or has none. -/
theorem not_range_iff {text : List Char} :
    (∀ c cs after, cutAt '-' text ≠ some (c :: cs, after)) ↔
      ('-' ∈ text → text.head? = some '-') := by
  rcases hcut : cutAt '-' text with _ | ⟨_ | ⟨c, cs⟩, after⟩
  · exact iff_of_true (by nofun) fun hmem => absurd hmem (cutAt_eq_none_iff.1 hcut)
  · obtain ⟨rfl, -⟩ := cutAt_eq_some_iff.1 hcut
    exact iff_of_true (by nofun) fun _ => rfl
  · obtain ⟨rfl, hdash⟩ := cutAt_eq_some_iff.1 hcut
    refine iff_of_false (fun hx => hx c cs after rfl) fun hx => hdash ?_
    have hhead : some c = some '-' := hx (by simp)
    cases hhead
    exact List.mem_cons_self

section
variable {d : Domain} {text : List Char} {kind : FaultKind} {fault : Fault} {step : Nat}

theorem readStepped_of_range {c : Char} {cs after : List Char}
    (hcut : cutAt '-' text = some (c :: cs, after)) : readStepped d text step =
      (readValue d (c :: cs) >>= fun a =>
        readValue d after >>= fun b => .ok (.range a b step)) := by
  have hstar : text ≠ ['*'] := by
    intro he
    rw [he] at hcut
    cases hcut
  rw [readStepped, if_neg hstar, hcut]

/-- What becomes of a single value with a step. -/
def onlyWithStep (text : List Char) (step : Nat) (value : Int) : Except (Failure Fault) Part :=
  match step with
  | 0 => .ok (.onward value)
  | 1 => .ok (.only value)
  | _ => reject (.stepWithoutRange (String.ofList text) step)

theorem onlyWithStep_eq_reported_iff {value : Int} :
    onlyWithStep text step value = .error (.reported fault) ↔
      step ≠ 0 ∧ step ≠ 1 ∧ fault = .stepWithoutRange (String.ofList text) step := by
  unfold onlyWithStep
  split
  · simp
  · simp
  · rename_i h0 h1
    simp only [reject, Except.error.injEq, Failure.reported.injEq]
    exact ⟨fun h => ⟨fun he => h0 he, fun he => h1 he, h.symm⟩, fun h => h.2.2.symm⟩

theorem readStepped_of_value (hstar : text ≠ ['*'])
    (hcut : ∀ c cs after, cutAt '-' text ≠ some (c :: cs, after)) :
    readStepped d text step = (readValue d text >>= onlyWithStep text step) := by
  rw [readStepped, if_neg hstar]
  split
  · rename_i c cs after hc
    exact absurd hc (hcut c cs after)
  · rfl

theorem readPart_of_not_mem_slash (h : HasNoBlank text) (hne : text ≠ []) (hslash : '/' ∉ text) :
    readPart d text = readStepped d text 1 := by
  rw [readPart, isAllBlank_of_hasNoBlank h, if_neg (by simpa using hne),
    cutAt_eq_none_iff.2 hslash]

theorem readPart_slash {after : List Char} (h : HasNoBlank ('/' :: after)) :
    readPart d ('/' :: after) = reject (.nothingBeforeSlash (String.ofList ('/' :: after))) := by
  rw [readPart, isAllBlank_of_hasNoBlank h, if_neg (by simp), cutAt, if_pos rfl]

theorem readPart_of_slash {before after : List Char} (h : HasNoBlank (before ++ '/' :: after))
    (hne : before ≠ []) (hslash : '/' ∉ before) : readPart d (before ++ '/' :: after) =
      (readStep after >>= fun step => readStepped d before step) := by
  obtain ⟨c, cs, rfl⟩ := List.exists_cons_of_ne_nil hne
  rw [readPart, isAllBlank_of_hasNoBlank h, if_neg (by simp),
    cutAt_eq_some_iff.2 ⟨rfl, hslash⟩]

section
variable (hd : d.PlainNames) (h : HasNoBlank text)

include hd h in
theorem readStepped_of_bodyFault (hb : BodyFault d step text kind fault) :
    readStepped d text step = .error (.reported fault) := by
  cases hb with
  | first hne hdash hv =>
    obtain ⟨c, cs, rfl⟩ := List.exists_cons_of_ne_nil hne
    rw [readStepped_of_range (cutAt_eq_some_iff.2 ⟨rfl, hdash⟩),
      readValue_of_valueFault hv h.of_append.1]
    rfl
  | second hdash ha hw =>
    obtain ⟨c, cs, rfl⟩ := List.exists_cons_of_ne_nil ha.ne_nil
    obtain ⟨hfirst, hsecond⟩ := h.of_append
    rw [readStepped_of_range (cutAt_eq_some_iff.2 ⟨rfl, hdash⟩),
      (readValue_eq_ok_iff hd hfirst).2 ha, readValue_of_valueFault hw hsecond.of_cons]
    rfl
  | value hstar hdash hv =>
    rw [readStepped_of_value hstar (not_range_iff.2 hdash), readValue_of_valueFault hv h]
    rfl
  | step ha h0 h1 =>
    have hstar : text ≠ ['*'] := fun he =>
      ha.not_mem hd (m := '*') (by decide) (he ▸ List.mem_cons_self)
    have hdash : '-' ∉ text := ha.not_mem hd (by decide)
    rw [readStepped_of_value hstar (not_range_iff.2 fun hmem => absurd hmem hdash),
      (readValue_eq_ok_iff hd h).2 ha]
    exact onlyWithStep_eq_reported_iff.2 ⟨h0, h1, rfl⟩

include hd h in
theorem bodyFault_of_readStepped (hr : readStepped d text step = .error (.reported fault)) :
    ∃ kind, BodyFault d step text kind fault := by
  by_cases hstar : text = ['*']
  · rw [readStepped, if_pos hstar] at hr
    cases hr
  by_cases hrange : ∀ c cs after, cutAt '-' text ≠ some (c :: cs, after)
  · rw [readStepped_of_value hstar hrange] at hr
    rcases bind_eq_error_iff.1 hr with hv | ⟨a, ha, hstep⟩
    · obtain ⟨kind, hv⟩ := valueFault_of_readValue h hv
      exact ⟨kind, .value hstar (not_range_iff.1 hrange) hv⟩
    · obtain ⟨h0, h1, rfl⟩ := onlyWithStep_eq_reported_iff.1 hstep
      exact ⟨_, .step ((readValue_eq_ok_iff hd h).1 ha) h0 h1⟩
  · push Not at hrange
    obtain ⟨c, cs, after, hcut⟩ := hrange
    rw [readStepped_of_range hcut] at hr
    obtain ⟨rfl, hdash⟩ := cutAt_eq_some_iff.1 hcut
    obtain ⟨hfirst, hsecond⟩ := h.of_append
    rcases bind_eq_error_iff.1 hr with hv | ⟨a, ha, hr⟩
    · obtain ⟨kind, hv⟩ := valueFault_of_readValue hfirst hv
      exact ⟨kind, .first (List.cons_ne_nil c cs) hdash hv⟩
    · rcases bind_eq_error_iff.1 hr with hw | ⟨b, -, hr⟩
      · obtain ⟨kind, hw⟩ := valueFault_of_readValue hsecond.of_cons hw
        exact ⟨kind, .second hdash ((readValue_eq_ok_iff hd hfirst).1 ha) hw⟩
      · cases hr

include hd h in
theorem readPart_of_partFault (hp : PartFault d text kind fault) :
    readPart d text = .error (.reported fault) := by
  cases hp with
  | empty => rfl
  | slash => exact readPart_slash h
  | step hne hslash hdigits =>
    obtain ⟨hbefore, hafter⟩ := h.of_append
    rw [readPart_of_slash h hne hslash,
      (readStep_eq_reported_iff hafter.of_cons).2 ⟨hdigits, rfl⟩]
    rfl
  | alone hne hslash hb =>
    rw [readPart_of_not_mem_slash h hne hslash, readStepped_of_bodyFault hd h hb]
  | stepped hne hslash hn hb =>
    obtain ⟨hbefore, hafter⟩ := h.of_append
    rw [readPart_of_slash h hne hslash, (readStep_eq_ok_iff hafter.of_cons).2 hn]
    exact readStepped_of_bodyFault hd hbefore hb

include hd h in
theorem partFault_of_readPart (hr : readPart d text = .error (.reported fault)) :
    ∃ kind, PartFault d text kind fault := by
  by_cases hne : text = []
  · subst hne
    cases hr
    exact ⟨_, .empty⟩
  rcases hcut : cutAt '/' text with _ | ⟨before, after⟩
  · have hslash := cutAt_eq_none_iff.1 hcut
    rw [readPart_of_not_mem_slash h hne hslash] at hr
    obtain ⟨kind, hb⟩ := bodyFault_of_readStepped hd h hr
    exact ⟨kind, .alone hne hslash hb⟩
  · obtain ⟨rfl, hslash⟩ := cutAt_eq_some_iff.1 hcut
    by_cases hbefore : before = []
    · subst hbefore
      rw [List.nil_append, readPart_slash h] at hr
      cases hr
      exact ⟨_, .slash⟩
    · obtain ⟨hblank, hafter⟩ := h.of_append
      rw [readPart_of_slash h hbefore hslash] at hr
      rcases bind_eq_error_iff.1 hr with hstep | ⟨step, hstep, hr⟩
      · obtain ⟨hdigits, rfl⟩ := (readStep_eq_reported_iff hafter.of_cons).1 hstep
        exact ⟨_, .step hbefore hslash hdigits⟩
      · obtain ⟨kind, hb⟩ := bodyFault_of_readStepped hd hblank hr
        exact ⟨kind, .stepped hbefore hslash ((readStep_eq_ok_iff hafter.of_cons).1 hstep) hb⟩

end

end

end Token

/-- A part has one fault at most. -/
theorem PartFault.unique {d : Domain} (hd : d.PlainNames) {text : List Char}
    (h : HasNoBlank text) {kind kind' : FaultKind} {fault fault' : Fault}
    (hp : PartFault d text kind fault) (hp' : PartFault d text kind' fault') :
    kind' = kind ∧ fault' = fault := by
  have hr := Token.readPart_of_partFault hd h hp
  rw [Token.readPart_of_partFault hd h hp'] at hr
  cases hr
  exact ⟨hp'.kind_eq.symm.trans hp.kind_eq, rfl⟩

end CronFire
