import CronFire.Proofs.Field.Reach
import CronFire.Proofs.Field.Reported
import CronFire.Proofs.Text.Digits
/-!
# Spellings of a field

A token spells a set of values in one of many ways.  Its parts are read each for itself and their
spans are merged, so it may have them in any order and any of them more than once.  The values of
the set, written in decimal with commas between them, spell the same set again, reach included,
where the names fit the domain and no value is too long to read.

Two sets that compare equal have the same values, and the queries answer by these alone: the
reach, which equality does not look at, may differ and changes no answer.

Results:
* `Token.read_intercalate`: the parts of a token in another order, or repeated.
* `Token.readParts_integerDigits`: values in decimal are read as themselves.
* `Field.sameValues_exact`: other spellings of a token, and what equality means.
* `Field.values_spell_set`: the values as a token.
-/
namespace CronFire

open Text

namespace Token

variable {d : Domain} {texts : List (List Char)} {parts : List Part}

/-! ## Pieces between commas -/

theorem not_mem_of_mem_pieces {sep : Char} {cs piece : List Char} (h : piece ∈ pieces sep cs) :
    sep ∉ piece := by
  induction cs generalizing piece with
  | nil =>
    rw [pieces, List.mem_singleton] at h
    simp [h]
  | cons c cs ih =>
    rw [pieces] at h
    split at h
    · rcases List.mem_cons.1 h with rfl | h
      · exact List.not_mem_nil
      · exact ih h
    · rename_i hc
      split at h
      · rename_i hnil
        rw [pieces_eq_splitOn] at hnil
        exact absurd hnil (List.splitOn_ne_nil _ _)
      · rename_i first rest hpieces
        rcases List.mem_cons.1 h with rfl | h
        · have hfirst : sep ∉ first := ih (hpieces ▸ List.mem_cons_self)
          rw [List.mem_cons, not_or]
          exact ⟨Ne.symm hc, hfirst⟩
        · exact ih (hpieces ▸ List.mem_cons_of_mem first h)

/-- Texts without commas are the pieces of what they make with commas between them. -/
theorem read_intercalate (hne : texts ≠ []) (hcomma : ∀ text ∈ texts, ',' ∉ text) :
    read d (some (String.ofList ([','].intercalate texts))) = readParts d texts := by
  rw [read, String.toList_ofList, pieces_eq_splitOn, List.splitOn_intercalate ',' hcomma hne]

/-! ## Parts read each for itself -/

theorem exists_readParts_iff :
    (∃ parts, readParts d texts = .ok parts) ↔ ∀ text ∈ texts, ∃ part, readPart d text = .ok part := by
  induction texts with
  | nil => simp [readParts]
  | cons text texts ih =>
    rw [List.forall_mem_cons, ← ih]
    constructor
    · rintro ⟨parts, h⟩
      obtain ⟨part, hpart, h⟩ := bind_eq_ok_iff.1 h
      obtain ⟨rest, hrest, -⟩ := bind_eq_ok_iff.1 h
      exact ⟨⟨part, hpart⟩, rest, hrest⟩
    · rintro ⟨⟨part, hpart⟩, rest, hrest⟩
      exact ⟨part :: rest, bind_eq_ok_iff.2 ⟨part, hpart, bind_eq_ok_iff.2 ⟨rest, hrest, rfl⟩⟩⟩

theorem mem_iff_of_readParts (h : readParts d texts = .ok parts) {part : Part} :
    part ∈ parts ↔ ∃ text ∈ texts, readPart d text = .ok part := by
  induction texts generalizing parts with
  | nil =>
    cases h
    simp
  | cons text texts ih =>
    obtain ⟨first, hfirst, h⟩ := bind_eq_ok_iff.1 h
    obtain ⟨rest, hrest, h⟩ := bind_eq_ok_iff.1 h
    cases h
    simp only [List.mem_cons, exists_eq_or_imp, ih hrest, hfirst, Except.ok.injEq]
    exact or_congr_left eq_comm

/-- The same texts in another order, or some of them repeated, are read as the same parts. -/
theorem exists_readParts_of_mem_iff (h : readParts d texts = .ok parts)
    {texts' : List (List Char)} (htexts : ∀ text, text ∈ texts' ↔ text ∈ texts) :
    ∃ parts', readParts d texts' = .ok parts' ∧ ∀ part, part ∈ parts' ↔ part ∈ parts := by
  have heach := exists_readParts_iff.1 ⟨parts, h⟩
  obtain ⟨parts', h'⟩ := exists_readParts_iff.2 fun text htext => heach text ((htexts text).1 htext)
  refine ⟨parts', h', fun part => ?_⟩
  rw [mem_iff_of_readParts h', mem_iff_of_readParts h]
  simp only [htexts]

/-! ## Values in decimal -/

theorem not_mem_digits {m : Char} (hm : m ∈ [',', '/', '-', '*']) (n : Nat) : m ∉ digits n := by
  intro hmem
  have hdigit := List.all_eq_true.1 (all_isDigit_digits n) m hmem
  rw [(plain_of_mem_marks hm).1] at hdigit
  cases hdigit

theorem hasNoBlank_digits (n : Nat) : HasNoBlank (digits n) := fun c hc =>
  isBlank_of_isDigit (List.all_eq_true.1 (all_isDigit_digits n) c hc)

theorem isNumeral_digits {n : Nat} (h : n < 10 ^ digitLimit) : IsNumeral (digits n) n :=
  ⟨digits_ne_nil n, List.all_eq_true.1 (all_isDigit_digits n),
    length_digits_le (by decide) h, value_digits n⟩

theorem readValue_digits {n : Nat} (hlong : n < 10 ^ digitLimit) (hlow : d.minimum ≤ n)
    (hhigh : n ≤ d.maximum) : readValue d (digits n) = .ok n := by
  have hnumeral := isNumeral_digits hlong
  have hblank := hasNoBlank_digits n
  obtain ⟨c, cs, hdigits⟩ := List.exists_cons_of_ne_nil hnumeral.1
  have hread := (readNumeral_eq_ok_iff hblank).2 hnumeral
  rw [hdigits] at hnumeral hblank hread ⊢
  have hin : ((n : Int) < d.minimum || d.maximum < n) = false := by
    simp only [Bool.or_eq_false_iff, decide_eq_false_iff_not]
    omega
  rw [readValue_of_isDigit hblank (hnumeral.2.1 c List.mem_cons_self), hread]
  simp only [hin, Bool.false_eq_true, if_false]

theorem readPart_digits {n : Nat} (hlong : n < 10 ^ digitLimit) (hlow : d.minimum ≤ n)
    (hhigh : n ≤ d.maximum) : readPart d (digits n) = .ok (.only n) := by
  have hstar : digits n ≠ ['*'] := fun h => not_mem_digits (m := '*') (by decide) n (by simp [h])
  have hdash : '-' ∉ digits n := not_mem_digits (by decide) n
  rw [readPart_of_not_mem_slash (hasNoBlank_digits n) (digits_ne_nil n)
      (not_mem_digits (by decide) n),
    readStepped_of_value hstar (not_range_iff.2 fun hmem => absurd hmem hdash),
    readValue_digits hlong hlow hhigh]
  rfl

theorem integerDigits_of_nonneg {v : Int} (h : 0 ≤ v) : integerDigits v = digits v.toNat := by
  obtain ⟨n, rfl⟩ := Int.eq_ofNat_of_zero_le h
  have hdecimal := toList_decimal n
  rw [decimal, String.toList_ofList] at hdecimal
  rw [hdecimal, Int.toNat_natCast]

/-- Values of the domain in decimal are read as themselves. -/
theorem readParts_integerDigits (hmin : 0 ≤ d.minimum) (hmax : d.maximum < 10 ^ digitLimit)
    {vs : List Int} (h : ∀ v ∈ vs, d.minimum ≤ v ∧ v ≤ d.maximum) :
    readParts d (vs.map integerDigits) = .ok (vs.map Part.only) := by
  induction vs with
  | nil => rfl
  | cons v vs ih =>
    rw [List.forall_mem_cons] at h
    obtain ⟨⟨hlow, hhigh⟩, h⟩ := h
    obtain ⟨n, rfl⟩ := Int.eq_ofNat_of_zero_le (Int.le_trans hmin hlow)
    have hlong : n < 10 ^ digitLimit := by exact_mod_cast Int.lt_of_le_of_lt hhigh hmax
    have hpart : readPart d (integerDigits n) = .ok (.only n) := by
      rw [integerDigits_of_nonneg (Int.natCast_nonneg n)]
      exact readPart_digits hlong hlow hhigh
    exact bind_eq_ok_iff.2 ⟨_, hpart, bind_eq_ok_iff.2 ⟨_, ih h, rfl⟩⟩

end Token

/-! ## Sets of single values -/

theorem Part.reached_span_only (d : Domain) (v : Int) : ((only v).span d).reached = v := by
  simp [span, Span.reached, Span.nth, Span.size]

/-- The values of a set, merged one by one, give the set again, if its reach is tight. -/
theorem ValueSet.ofSpans_only {d : Domain} {s : ValueSet} (hs : s.Sound) (ht : s.Tight)
    (hmin : s.minimum = d.minimum) (hmax : s.maximum = d.maximum) :
    ofSpans d ((s.toList.map Part.only).map (Part.span d)) = s := by
  have hfirst : ∀ span ∈ (s.toList.map Part.only).map (Part.span d), d.minimum ≤ span.first := by
    intro span hspan
    simp only [List.map_map, List.mem_map, Function.comp_apply] at hspan
    obtain ⟨v, hv, rfl⟩ := hspan
    exact hmin ▸ ((mem_toList hs).1 hv).1
  have hstarts : ((s.toList.map Part.only).map (Part.span d)).map Span.first = s.toList := by
    rw [List.map_map, List.map_map]
    exact List.map_id s.toList
  have harrivals : ((s.toList.map Part.only).map (Part.span d)).map Span.reached = s.toList := by
    simp only [List.map_map, Function.comp_def, Part.reached_span_only, List.map_id']
  obtain ⟨low, hlow, hlowReach⟩ := ht.low
  obtain ⟨high, hhigh, hhighReach⟩ := ht.high
  refine eq_of_mem_iff ((minimum_ofSpans d _).trans hmin.symm)
    ((maximum_ofSpans d _).trans hmax.symm) (fun v => ?_) ?_ ?_
  · rw [mem_ofSpans hfirst]
    simp only [List.map_map, List.mem_map, Function.comp_apply, exists_exists_and_eq_and,
      Part.mem_span_iff, Part.Allows, mem_toList hs, exists_eq_right']
  · rw [lowReach?_ofSpans, hstarts, hlowReach]
    exact List.min?_eq_some_iff.2 ⟨(mem_toList hs).2 hlow, fun v hv =>
      hs.lowReach_le hlowReach ((mem_toList hs).1 hv)⟩
  · rw [highReach?_ofSpans, harrivals, hhighReach]
    exact List.max?_eq_some_iff.2 ⟨(mem_toList hs).2 hhigh, fun v hv =>
      hs.le_highReach hhighReach ((mem_toList hs).1 hv)⟩

namespace Field

variable {d : Domain}

/-- The parts of a token in another order, or some of them repeated, spell the same set. -/
theorem read_rearranged {token : String} {f : Field} (h : read d (some token) = .ok f)
    {texts : List String}
    (htexts : ∀ text : String, text ∈ texts ↔ text.toList ∈ pieces ',' token.toList) :
    read d (some (",".intercalate texts)) = .ok ⟨some (",".intercalate texts), f.allowed⟩ := by
  obtain ⟨parts, hparts, rfl⟩ := read_eq_ok_iff.1 h
  have hmem : ∀ cs, cs ∈ texts.map String.toList ↔ cs ∈ pieces ',' token.toList := by
    intro cs
    rw [List.mem_map]
    constructor
    · rintro ⟨text, htext, rfl⟩
      exact (htexts text).1 htext
    · intro hcs
      exact ⟨String.ofList cs, (htexts _).2 (by rwa [String.toList_ofList]), String.toList_ofList⟩
  obtain ⟨parts', hparts', hsame⟩ := Token.exists_readParts_of_mem_iff hparts hmem
  have hne : texts.map String.toList ≠ [] := by
    obtain ⟨cs, hcs⟩ := List.exists_mem_of_ne_nil (pieces ',' token.toList)
      (by rw [Token.pieces_eq_splitOn]; exact List.splitOn_ne_nil _ _)
    exact List.ne_nil_of_mem ((hmem cs).2 hcs)
  have hread : Token.read d (some (",".intercalate texts)) = .ok parts' := by
    have htoken : ",".intercalate texts =
        String.ofList ([','].intercalate (texts.map String.toList)) := by
      rw [← String.toList_inj, String.toList_ofList, String.toList_intercalate]
      rfl
    rw [htoken, Token.read_intercalate hne fun cs hcs =>
      Token.not_mem_of_mem_pieces ((hmem cs).1 hcs), hparts']
  have hset : ValueSet.ofSpans d (parts'.map (Part.span d)) =
      ValueSet.ofSpans d (parts.map (Part.span d)) :=
    ValueSet.ofSpans_congr (minimum_le_first hparts) fun span => by
      simp only [List.mem_map, hsame]
  exact read_eq_ok_iff.2 ⟨parts', hread, by rw [hset]⟩

/-- **Other spellings and equality.** Whatever the domain, the parts of a token that is read may
stand in any other order and any number of times each: the token they make is read too, and gives
an equal set with the same reach.  Two sets that were read compare equal exactly if they list the
same values over the same domain, and then every query has the same answer. -/
theorem sameValues_exact {d : Domain} {token : String} {f : Field}
    (h : read d (some token) = .ok f) :
    (∀ texts : List String,
      (∀ text : String, text ∈ texts ↔ text.toList ∈ pieces ',' token.toList) →
      ∃ g, read d (some (",".intercalate texts)) = .ok g ∧ f.allowed.sameValues g.allowed = true ∧
        g.allowed.lowReach? = f.allowed.lowReach? ∧
        g.allowed.highReach? = f.allowed.highReach?) ∧
    ∀ (d' : Domain) (token' : Option String) (g : Field), read d' token' = .ok g →
      (f.allowed.sameValues g.allowed = true ↔
        d.minimum = d'.minimum ∧ d.maximum = d'.maximum ∧ f.allowed.toList = g.allowed.toList) ∧
      (f.allowed.sameValues g.allowed = true →
        (∀ start, f.allowed.next? start = g.allowed.next? start) ∧
        f.allowed.first? = g.allowed.first? ∧
        (∀ v, f.allowed.contains? v = g.allowed.contains? v) ∧
        (∀ v, f.allowed.has v = g.allowed.has v) ∧ f.allowed.size = g.allowed.size) := by
  have hf := sound_allowed h
  refine ⟨fun texts htexts => ?_, fun d' token' g h' => ?_⟩
  · exact ⟨_, read_rearranged h htexts, ValueSet.sameValues_iff_mask.2 ⟨rfl, rfl, rfl⟩, rfl, rfl⟩
  · have hg := sound_allowed h'
    constructor
    · rw [ValueSet.sameValues_iff hf hg, minimum_allowed h, minimum_allowed h',
        maximum_allowed h, maximum_allowed h']
    · intro hsame
      have hmem := ValueSet.mem_iff_of_sameValues hsame
      obtain ⟨hmin, hmax, hmask⟩ := ValueSet.sameValues_iff_mask.1 hsame
      refine ⟨ValueSet.next?_congr hf hg hmem, ValueSet.first?_congr hf hg hmem, fun v => ?_,
        fun v => ?_, ?_⟩
      · rw [ValueSet.contains?, ValueSet.contains?, ValueSet.bit, ValueSet.bit, hmin, hmask]
      · rw [ValueSet.has, ValueSet.has, ValueSet.bit, ValueSet.bit, hmin, hmax, hmask]
      · rw [ValueSet.size, ValueSet.size, hmask]

/-- Equality does not look at the reach.  The last of four names stands for 8 in a domain that ends
with 6, so the sets of `west/0,*` and `5-6` reach differently far.  They are equal all the same, and
give the same next values. -/
theorem sameValues_exact_pastMaximum : ∃ f g,
    read ⟨5, 6, ["north", "east", "south", "west"]⟩ (some "west/0,*") = .ok f ∧
      read ⟨5, 6, []⟩ (some "5-6") = .ok g ∧ f.allowed.highReach? = some 8 ∧
      g.allowed.highReach? = some 6 ∧ f.allowed.sameValues g.allowed = true ∧
      (∀ start, f.allowed.next? start = g.allowed.next? start) ∧
      ∃ f', read ⟨5, 6, ["north", "east", "south", "west"]⟩ (some "*,west/0,*") = .ok f' ∧
        f.allowed.sameValues f'.allowed = true ∧ f'.allowed.highReach? = some 8 := by
  have hf : read ⟨5, 6, ["north", "east", "south", "west"]⟩ (some "west/0,*") =
      .ok ⟨some "west/0,*", ⟨5, 6, 3, some (5, 8)⟩⟩ := by decide +kernel
  have hg : read ⟨5, 6, []⟩ (some "5-6") = .ok ⟨some "5-6", ⟨5, 6, 3, some (5, 6)⟩⟩ := by
    decide +kernel
  have htexts : ∀ text : String, text ∈ ["*", "west/0", "*"] ↔
      text.toList ∈ pieces ',' "west/0,*".toList := by
    intro text
    have hpieces : pieces ',' "west/0,*".toList = ["west/0".toList, "*".toList] := by
      decide +kernel
    simp only [hpieces, List.mem_cons, List.not_mem_nil, or_false, String.toList_inj]
    tauto
  obtain ⟨hspelling, hequality⟩ := sameValues_exact hf
  obtain ⟨f', hf', hsame, -, hhigh⟩ := hspelling ["*", "west/0", "*"] htexts
  obtain ⟨hiff, hqueries⟩ := hequality _ _ _ hg
  have hequal := hiff.2 ⟨rfl, rfl, by decide +kernel⟩
  exact ⟨_, _, hf, hg, rfl, rfl, hequal, (hqueries hequal).1, f', hf', hsame, hhigh⟩

/-! ## The values as a token -/

/-- Over a domain that its names fit, the values of a field are the parts of a token that spells
its set again. -/
theorem read_listing {d : Domain} (hmin : 0 ≤ d.minimum) (hmax : d.maximum < 10 ^ digitLimit)
    (hd : d.Fits) {token : Option String} {f : Field} (h : read d token = .ok f) :
    read d (some (",".intercalate (f.allowed.toList.map decimal))) =
      .ok ⟨some (",".intercalate (f.allowed.toList.map decimal)), f.allowed⟩ := by
  have hs := sound_allowed h
  have hproper := proper_allowed hd h
  have hinside : ∀ v ∈ f.allowed.toList, d.minimum ≤ v ∧ v ≤ d.maximum := fun v hv =>
    hproper.inside v ((ValueSet.mem_toList hs).1 hv)
  have hne : f.allowed.toList.map integerDigits ≠ [] := by
    obtain ⟨v, hv⟩ := hproper.inhabited
    exact List.ne_nil_of_mem (List.mem_map_of_mem ((ValueSet.mem_toList hs).2 hv))
  have hcomma : ∀ text ∈ f.allowed.toList.map integerDigits, ',' ∉ text := by
    rw [List.forall_mem_map]
    intro v hv
    rw [Token.integerDigits_of_nonneg (Int.le_trans hmin (hinside v hv).1)]
    exact Token.not_mem_digits (by decide) v.toNat
  have htoken : ",".intercalate (f.allowed.toList.map decimal) =
      String.ofList ([','].intercalate (f.allowed.toList.map integerDigits)) := by
    rw [← String.toList_inj, String.toList_ofList, String.toList_intercalate, List.map_map]
    congr 1
    exact List.map_congr_left fun v _ => String.toList_ofList
  have hparts : Token.read d (some (",".intercalate (f.allowed.toList.map decimal))) =
      .ok (f.allowed.toList.map Part.only) := by
    rw [htoken, Token.read_intercalate hne hcomma, Token.readParts_integerDigits hmin hmax hinside]
  have hset := ValueSet.ofSpans_only hs (tight_allowed hd h) (minimum_allowed h) (maximum_allowed h)
  exact read_eq_ok_iff.2 ⟨_, hparts, by rw [hset]⟩

/-- **The values as a token.** Over a domain of numbers from 0 up that can be read, and that its
names fit, the values of a field in decimal with commas between them are a token.  It gives an
equal set, with the same reach and the same values. -/
theorem values_spell_set {d : Domain} (hmin : 0 ≤ d.minimum) (hmax : d.maximum < 10 ^ digitLimit)
    (hd : d.Fits) {token : Option String} {f : Field} (h : read d token = .ok f) :
    ∃ g, read d (some (",".intercalate (f.allowed.toList.map decimal))) = .ok g ∧
      g.allowed.sameValues f.allowed = true ∧ g.allowed.lowReach? = f.allowed.lowReach? ∧
      g.allowed.highReach? = f.allowed.highReach? ∧ g.allowed.first? = f.allowed.first? ∧
      g.allowed.toList = f.allowed.toList :=
  ⟨_, read_listing hmin hmax hd h, ValueSet.sameValues_iff_mask.2 ⟨rfl, rfl, rfl⟩, rfl, rfl, rfl,
    rfl⟩

/-- A range against the order of the names, by steps of two, and the last value of the domain. -/
theorem values_spell_set_compass : ∃ f g,
    read ⟨5, 9, ["north", "east", "south", "west"]⟩ (some "west-NORTH/2,9/1") = .ok f ∧
      read ⟨5, 9, ["north", "east", "south", "west"]⟩ (some "5,7,9") = .ok g ∧
      g.allowed.sameValues f.allowed = true ∧ g.allowed.lowReach? = some 5 ∧
      g.allowed.highReach? = some 9 := by
  have hread : read ⟨5, 9, ["north", "east", "south", "west"]⟩ (some "west-NORTH/2,9/1") =
      .ok ⟨some "west-NORTH/2,9/1", ⟨5, 9, 21, some (5, 9)⟩⟩ := by decide +kernel
  have hmax : (9 : Int) < 10 ^ digitLimit := by
    have hnine : 9 < 10 ^ digitLimit := lt_pow_digitLimit (by decide)
    generalize digitLimit = limit at hnine ⊢
    exact_mod_cast hnine
  have hlisted : ",".intercalate ((⟨5, 9, 21, some (5, 9)⟩ : ValueSet).toList.map decimal) =
      "5,7,9" := by decide +kernel
  obtain ⟨g, hg, hsame, hlow, hhigh, -, -⟩ :=
    values_spell_set (d := ⟨5, 9, ["north", "east", "south", "west"]⟩) (by decide) hmax
      ⟨by decide, by decide⟩ hread
  rw [hlisted] at hg
  exact ⟨_, g, hread, hg, hsame, hlow, hhigh⟩

end Field

end CronFire
