import CronFire.Proofs.Schedule.FirstError
import CronFire.Proofs.Terminal.Wrapped
/-!
# The characters of messages

A quoted text holds nothing but printable characters.  The message of an error quotes the
expression or repeats pieces of one of its words, which hold no blank, and is made of printable
characters otherwise.  So all blanks in both are spaces; but a word may hold characters that are
not printed, and then the message holds them too.

Results:
* `all_isPrintable_quoted`: quoted texts.
* `Schedule.exists_speaks_message`: messages.
* `plainBlanks_quoted`, `Schedule.plainBlanks_message`: the blanks of both.
-/
namespace CronFire

open Text

namespace Text

/-! ## Printable characters -/

theorem isPrintable_of_ascii {c : Char} (h : 0x20 ≤ c.toNat) (h' : c.toNat ≤ 0x7e) :
    isPrintable c = true := by
  rw [isPrintable, if_pos (by omega)]
  simp [h, h']

/-- The space is the only blank that is printable. -/
theorem eq_space_of_isPrintable {c : Char} (h : isPrintable c = true) (hblank : isBlank c = true) :
    c = ' ' := by
  have hbeyond : ∀ n ∈ [0x85, 0xa0, 0x1680, 0x2028, 0x2029, 0x202f, 0x205f, 0x3000] ++
      List.range' 0x2000 11, inRanges unprintableRanges n = true := by decide +kernel
  simp only [isBlank, Bool.or_eq_true, Bool.and_eq_true, decide_eq_true_eq, beq_iff_eq] at hblank
  unfold isPrintable at h
  split at h
  · have hspace : c.toNat = 32 := by
      simp only [Bool.and_eq_true, decide_eq_true_eq] at h
      omega
    exact Char.toNat_inj.1 hspace
  · rw [hbeyond c.toNat (by simp [List.mem_range'_1]; omega)] at h
    cases h

theorem isDropped_of_isPrintable {c : Char} (h : isPrintable c = true) :
    Terminal.isDropped c = false := by
  have hlow : 0x20 ≤ c.toNat := by
    unfold isPrintable at h
    split at h
    · simp only [Bool.and_eq_true, decide_eq_true_eq] at h
      exact h.1
    · omega
  simp only [Terminal.isDropped, Bool.or_eq_false_iff, Bool.and_eq_false_iff,
    decide_eq_false_iff_not]
  omega

theorem isStray_of_isPrintable [Strays] {c : Char} (h : isPrintable c = true) :
    isStray c = false := by
  refine isStray_eq_false (Nat.not_le.1 fun hprivate => ?_)
  have hlast : (0xe01f0, 0x10ffff) ∈ unprintableRanges := by decide +kernel
  have hvalid : c.toNat < 0xd800 ∨ 0xdfff < c.toNat ∧ c.toNat < 0x110000 := c.valid
  have hrange : inRanges unprintableRanges c.toNat = true := by
    refine List.any_eq_true.2 ⟨_, hlast, ?_⟩
    simp only [Bool.and_eq_true, decide_eq_true_eq]
    omega
  rw [isPrintable, if_neg (by omega), hrange] at h
  cases h

theorem isPrintable_of_isDigit {c : Char} (h : c.isDigit = true) : isPrintable c = true := by
  simp only [Char.isDigit, Bool.and_eq_true, decide_eq_true_eq, UInt32.le_iff_toNat_le] at h
  have hlow : 48 ≤ c.toNat := h.1
  have hhigh : c.toNat ≤ 57 := h.2
  exact isPrintable_of_ascii (by omega) (by omega)

/-! ## Quoted texts -/

variable [Strays]

omit [Strays] in
theorem all_isPrintable_hexDigits {width n : Nat} :
    (hexDigits width n).all isPrintable = true := by
  induction width generalizing n with
  | zero => rfl
  | succ width ih =>
    have hdigit : ∀ k : Fin 16, isPrintable (hexChar k) = true := by decide
    have hlast := hdigit ⟨n % 16, Nat.mod_lt n (by decide)⟩
    rw [hexDigits, List.all_append, ih, Bool.true_and]
    simpa using hlast

theorem all_isPrintable_escapeChar {quote : Char} (hquote : isPrintable quote = true) (c : Char) :
    (escapeChar quote c).all isPrintable = true := by
  have hslash : isPrintable '\\' = true := by decide
  have hcode : ∀ (letter : Char) (width n : Nat), isPrintable letter = true →
      ('\\' :: letter :: hexDigits width n).all isPrintable = true := by
    intro letter width n hletter
    simp [hslash, hletter, all_isPrintable_hexDigits]
  unfold escapeChar
  split
  · rename_i hc
    have hself : isPrintable c = true := by
      rw [Bool.or_eq_true, decide_eq_true_eq, decide_eq_true_eq] at hc
      rcases hc with rfl | rfl
      · exact hquote
      · exact hslash
    simp [hslash, hself]
  · split
    · decide
    · split
      · decide
      · split
        · decide
        · split
          · rename_i hc
            simpa using hc
          · dsimp only
            split
            · exact hcode 'x' 2 _ (by decide)
            · split
              · exact hcode 'u' 4 _ (by decide)
              · exact hcode 'U' 8 _ (by decide)

/-- A quoted text is printable. -/
theorem all_isPrintable_quoted (text : String) :
    (quoted text).toList.all isPrintable = true := by
  have hquote : isPrintable (quoteFor text.toList) = true := by
    unfold quoteFor
    split <;> decide
  have hchars :
      (text.toList.flatMap (escapeChar (quoteFor text.toList))).all isPrintable = true := by
    rw [List.all_flatMap, List.all_eq_true]
    exact fun c _ => all_isPrintable_escapeChar hquote c
  simp [quoted, hquote, hchars]

end Text

theorem plainBlanks_quoted [Strays] (text : String) : Terminal.PlainBlanks (quoted text).toList :=
  fun c hc => eq_space_of_isPrintable (List.all_eq_true.1 (all_isPrintable_quoted text) c hc)

theorem kept_quoted [Strays] (text : String) : Terminal.Kept (quoted text).toList :=
  fun c hc => isDropped_of_isPrintable (List.all_eq_true.1 (all_isPrintable_quoted text) c hc)

theorem isEncodable_quoted [Strays] (text : String) : isEncodable (quoted text) = true := by
  refine List.all_eq_true.2 fun c hc => ?_
  rw [isStray_of_isPrintable (List.all_eq_true.1 (all_isPrintable_quoted text) c hc)]
  rfl

/-! ## Messages -/

/-- Each character of the text is printable or one of a word. -/
def Speaks (word : List Char) (text : String) : Prop :=
  ∀ c ∈ text.toList, isPrintable c = true ∨ c ∈ word

namespace Speaks

variable {word part : List Char} {s t : String}

theorem append (hs : Speaks word s) (ht : Speaks word t) : Speaks word (s ++ t) := by
  unfold Speaks
  rw [String.toList_append]
  exact List.forall_mem_append.2 ⟨hs, ht⟩

theorem of_printable (h : s.toList.all isPrintable = true) : Speaks word s :=
  fun c hc => .inl (List.all_eq_true.1 h c hc)

theorem mono (h : Speaks part s) (hsub : ∀ c ∈ part, c ∈ word) : Speaks word s :=
  fun c hc => (h c hc).imp_right (hsub c)

theorem ofList : Speaks word (String.ofList word) :=
  fun c hc => .inr (by rwa [String.toList_ofList] at hc)

theorem decimal (n : Int) : Speaks word (Text.decimal n) := by
  refine of_printable (List.all_eq_true.2 fun c hc => ?_)
  have hdigits : ∀ m : Nat, ∀ c ∈ digits m, isPrintable c = true := fun m c hc =>
    isPrintable_of_isDigit (List.all_eq_true.1 (all_isDigit_digits m) c hc)
  rw [Text.decimal, String.toList_ofList, integerDigits] at hc
  split at hc
  · rcases List.mem_cons.1 hc with rfl | hc
    · decide
    · exact hdigits _ c hc
  · exact hdigits _ c hc

theorem plainBlanks (h : Speaks word s) (hword : HasNoBlank word) :
    Terminal.PlainBlanks s.toList := by
  intro c hc hblank
  rcases h c hc with hprintable | hmem
  · exact eq_space_of_isPrintable hprintable hblank
  · rw [hword c hmem] at hblank
    cases hblank

end Speaks

section
variable {d : Domain} {text : List Char} {kind : FaultKind} {fault : Fault} {step : Nat}
  (hnames : Speaks [] (", ".intercalate d.names))
include hnames

theorem ValueFault.speaks (h : ValueFault d text kind fault) : Speaks text fault.message := by
  cases h with
  | missing => exact .of_printable (by decide)
  | notANumber _ _ =>
    refine .append (.append ?_ .ofList) ?_
    all_goals exact .of_printable (by decide)
  | outOfRange _ _ =>
    refine .append (.append (.append (.append (.append (.decimal _) ?_) (.decimal _)) ?_)
      (.decimal _)) ?_
    all_goals exact .of_printable (by decide)
  | notAValue _ _ =>
    refine .append (.append (.append (.append (.append (.append ?_ .ofList) ?_) (.decimal _)) ?_)
      (.decimal _)) ?_
    all_goals exact .of_printable (by decide +kernel)
  | unknownName _ _ _ =>
    refine .append (.append (.append (.append ?_ .ofList) ?_) ?names) ?_
    case names => exact hnames.mono (List.forall_mem_nil _)
    all_goals exact .of_printable (by decide +kernel)

theorem BodyFault.speaks (h : BodyFault d step text kind fault) : Speaks text fault.message := by
  cases h with
  | first _ _ hv => exact (hv.speaks hnames).mono fun c hc => List.mem_append_left _ hc
  | second _ _ hw =>
    exact (hw.speaks hnames).mono fun c hc => List.mem_append_right _ (List.mem_cons_of_mem _ hc)
  | value _ _ hv => exact hv.speaks hnames
  | step _ _ _ =>
    refine .append (.append (.append (.append (.append (.append (.append (.append ?_ .ofList) ?_)
      (.decimal _)) ?_) (.decimal _)) ?_) (.decimal _)) ?_
    all_goals exact .of_printable (by decide)

theorem PartFault.speaks (h : PartFault d text kind fault) : Speaks text fault.message := by
  cases h with
  | empty => exact .of_printable (by decide)
  | slash =>
    refine .append (.append ?_ .ofList) ?_
    all_goals exact .of_printable (by decide)
  | @step before after _ _ _ =>
    have hafter : Speaks after (Fault.badStep (String.ofList after)).message := by
      refine .append (.append ?_ .ofList) ?_
      all_goals exact .of_printable (by decide)
    exact hafter.mono fun c hc => List.mem_append_right _ (List.mem_cons_of_mem _ hc)
  | alone _ _ hb => exact hb.speaks hnames
  | stepped _ _ _ hb => exact (hb.speaks hnames).mono fun c hc => List.mem_append_left _ hc

end

theorem FieldKind.speaks_names (kind : FieldKind) :
    Speaks [] (", ".intercalate kind.domain.names) :=
  .of_printable (by cases kind <;> decide)

variable [Strays]

/-- The message of an error is printable but for the characters of one word. -/
theorem Schedule.exists_speaks_message {expression : String} {error : ExpressionError}
    (h : Schedule.read expression = .error (.reported error)) :
    ∃ word, HasNoBlank word ∧ Speaks word error.message := by
  have hws := splitsInto_words expression.toList
  rcases (read_eq_error_iff hws).1 h with ⟨-, hcount⟩ | ⟨-, field, -, hfail⟩
  · cases hcount
    have hquoted : Speaks [] (quoted expression) := .of_printable (all_isPrintable_quoted _)
    refine ⟨[], List.forall_mem_nil _, .append (.append (.append (.append ?_ (.decimal _)) ?_)
      hquoted) ?_⟩
    all_goals exact .of_printable (by decide)
  · have hblank := field.hasNoBlank_wordOf hws.hasNoBlank
    obtain ⟨fault, htoken, rfl⟩ := FieldKind.read_eq_reported_iff.1 hfail
    obtain ⟨before, text, after, kind, hsplit, -, hp⟩ :=
      Token.exists_firstFault field.plainNames_domain hblank htoken
    have hmem : text ∈ (field.wordOf (words expression.toList)).splitOn ',' := by
      rw [hsplit]
      simp
    have hfault := (hp.speaks field.speaks_names).mono fun c hc =>
      (infix_of_mem_splitOn hmem).subset hc
    refine ⟨_, hblank, .append (.append ?label ?_) (.append (.append (.append ?_ .ofList) ?_)
      hfault)⟩
    case label => exact .of_printable (by cases field <;> decide)
    all_goals exact .of_printable (by decide)

theorem Schedule.plainBlanks_message {expression : String} {error : ExpressionError}
    (h : Schedule.read expression = .error (.reported error)) :
    Terminal.PlainBlanks error.message.toList := by
  obtain ⟨word, hword, hspeaks⟩ := exists_speaks_message h
  exact hspeaks.plainBlanks hword

end CronFire
