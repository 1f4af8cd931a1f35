import CronFire.Toml.Document
import CronFire.Proofs.Fault
import CronFire.Proofs.Toml.Strings
/-!
# Documents line by line

What one line of a document does to the table that is being read: an empty line and a comment
do nothing, a header opens its table, and a line with a key gives the key its value.  Whatever
the later lines are, a string that a key was given stays.

* `readLines_comment`, `readLines_empty`, `readLines_header`, `readLines_assign`: one line read.
* `Table.Says`, `keeps_of_readLines`: what a document has said is not taken back.
* `joinLineEnds_append`, `joinLineEnds_text`: line ends in parts of a document.
-/
namespace CronFire.Toml

/-! ## Keys and statements -/

/-- A key that is written without quotes. -/
def IsBare (name : List Char) : Prop := name ≠ [] ∧ name.all isBareKeyChar = true

instance : DecidablePred IsBare := fun _ => inferInstanceAs (Decidable (_ ∧ _))

theorem isBareKeyChar_ne {c : Char} (h : isBareKeyChar c = true) :
    c ≠ '"' ∧ c ≠ '\'' ∧ c ≠ '[' ∧ c ≠ '\n' ∧ c ≠ '#' ∧ c ≠ ' ' ∧ c ≠ '\t' := by
  refine ⟨?_, ?_, ?_, ?_, ?_, ?_, ?_⟩ <;>
  · rintro rfl
    exact absurd h (by decide)

theorem keyPart_bare {name rest : List Char} {c : Char} (h : IsBare name)
    (hc : isBareKeyChar c = false) :
    keyPart (name ++ c :: rest) = .ok (String.ofList name, c :: rest) := by
  obtain ⟨hne, hall⟩ := h
  have hname := List.all_eq_true.mp hall
  have htake : (name ++ c :: rest).takeWhile isBareKeyChar = name := by
    rw [List.takeWhile_append_of_pos hname, List.takeWhile_cons_of_neg (by simp [hc]),
      List.append_nil]
  have hdrop : (name ++ c :: rest).dropWhile isBareKeyChar = c :: rest := by
    rw [List.dropWhile_append_of_pos hname, List.dropWhile_cons_of_neg (by simp [hc])]
  obtain ⟨first, others, rfl⟩ := List.exists_cons_of_ne_nil hne
  have hfirst := hname first List.mem_cons_self
  obtain ⟨hdouble, hsingle, -⟩ := isBareKeyChar_ne hfirst
  rw [List.cons_append] at htake hdrop ⊢
  rw [keyPart]
  · rw [if_pos hfirst, htake, hdrop]
  · exact hdouble
  · exact hsingle

/-- A key of one part, before something that is neither part of it nor a point. -/
theorem key_bare {name rest more : List Char} {c d : Char} (h : IsBare name)
    (hc : isBareKeyChar c = false) (hskip : skipSpaces (c :: rest) = d :: more) (hd : d ≠ '.') :
    key (name ++ c :: rest) = .ok ([String.ofList name], d :: more) := by
  rw [key, keyParts, keyPart_bare h hc]
  simp only [bind, Except.bind, hskip]
  split
  · rename_i heq
    exact absurd (List.cons.inj heq).1 hd
  · rfl

theorem skipSpaces_cons {c : Char} (h : isSpace c = false) (cs : List Char) :
    skipSpaces (c :: cs) = c :: cs := by
  rw [skipSpaces, List.dropWhile_cons_of_neg (by simp [h])]

theorem skipSpaces_bare {name : List Char} (h : IsBare name) (rest : List Char) :
    skipSpaces (name ++ rest) = name ++ rest := by
  obtain ⟨first, others, rfl⟩ := List.exists_cons_of_ne_nil h.1
  obtain ⟨-, -, -, -, -, hspace⟩ :=
    isBareKeyChar_ne (List.all_eq_true.mp h.2 first List.mem_cons_self)
  exact skipSpaces_cons (by simp [isSpace, hspace]) _

/-- A key and the equals sign as a line of a document has them. -/
theorem keyAndEquals_bare {name : List Char} (h : IsBare name) (cs : List Char) :
    keyAndEquals (name ++ ' ' :: '=' :: ' ' :: cs) = .ok ([String.ofList name], skipSpaces cs) := by
  rw [keyAndEquals, key_bare h (by decide) rfl (by decide)]
  rfl

theorem statement_assign {name cs : List Char} (h : IsBare name) :
    statement (name ++ ' ' :: '=' :: ' ' :: cs) =
      (readValue (skipSpaces cs)).map fun (v, rest) =>
        (.assign [String.ofList name] v, skipSpaces rest) := by
  have hkey := keyAndEquals_bare h cs
  obtain ⟨first, others, rfl⟩ := List.exists_cons_of_ne_nil h.1
  obtain ⟨-, -, hbracket, hnewline, hhash, -, -⟩ := isBareKeyChar_ne (List.all_eq_true.mp h.2 first
    List.mem_cons_self)
  rw [List.cons_append] at hkey ⊢
  rw [statement]
  · rw [hkey]
    show (readValue (skipSpaces cs)).bind _ = _
    cases readValue (skipSpaces cs) <;> rfl
  all_goals
    intros
    simp_all

theorem statement_header {name rest : List Char} (h : IsBare name) :
    statement ('[' :: (name ++ ']' :: rest)) =
      .ok (.open [String.ofList name], skipSpaces rest) := by
  have hskip : skipSpaces (']' :: rest) = ']' :: rest := skipSpaces_cons rfl rest
  have hkey := key_bare h (by decide) hskip (by decide)
  obtain ⟨first, others, rfl⟩ := List.exists_cons_of_ne_nil h.1
  obtain ⟨-, -, hbracket, -, -, hspace⟩ :=
    isBareKeyChar_ne (List.all_eq_true.mp h.2 first List.mem_cons_self)
  rw [List.cons_append] at hkey ⊢
  rw [statement]
  · rw [skipSpaces_cons (by simp [isSpace, hspace]), hkey]
    rfl
  · intro _ heq
    exact hbracket (List.cons.inj heq).1

/-! ## Lines -/

/-- A comment with the end of its line. -/
def IsComment (line : List Char) : Prop :=
  line.head? = some '#' ∧ line.getLast? = some '\n' ∧ line.dropLast.any isControl = false

instance : DecidablePred IsComment := fun _ => inferInstanceAs (Decidable (_ ∧ _))

theorem IsComment.exists_body {line : List Char} (h : IsComment line) :
    ∃ body, line = '#' :: (body ++ ['\n']) ∧ body.any isControl = false := by
  obtain ⟨hhead, hlast, hcontrol⟩ := h
  obtain ⟨first, rfl⟩ := List.getLast?_eq_some_iff.mp hlast
  cases first with
  | nil => cases hhead
  | cons c body =>
    obtain rfl : c = '#' := Option.some.inj hhead
    refine ⟨body, rfl, ?_⟩
    rw [List.dropLast_concat, List.any_cons] at hcontrol
    exact (Bool.or_eq_false_iff.mp hcontrol).2

/-- A line is checked as the list of characters that its text is made of: decoding the text takes
far longer. -/
theorem IsComment.of_ofList {cs : List Char} (h : IsComment cs) :
    IsComment (String.ofList cs).toList := by
  rwa [String.toList_ofList]

theorem readLines_empty (fuel : Nat) (d : Draft) (rest : List Char) :
    readLines (fuel + 1) d ("\n".toList ++ rest) = readLines fuel d rest := rfl

theorem readLines_comment {line : List Char} (h : IsComment line) (fuel : Nat) (d : Draft)
    (rest : List Char) :
    readLines (fuel + 1) d (line ++ rest) = readLines fuel d rest := by
  obtain ⟨body, rfl, hbody⟩ := h.exists_body
  have hline : ∀ c ∈ body, decide (c ≠ '\n') = true := by
    intro c hc
    have hcontrol : isControl c = false := by simpa using List.any_eq_false.mp hbody c hc
    refine decide_eq_true ?_
    rintro rfl
    exact absurd hcontrol (by decide)
  have htake : (body ++ '\n' :: rest).takeWhile (fun c => decide (c ≠ '\n')) = body := by
    rw [List.takeWhile_append_of_pos hline, List.takeWhile_cons_of_neg (by decide),
      List.append_nil]
  have hdrop : (body ++ '\n' :: rest).dropWhile (fun c => decide (c ≠ '\n')) = '\n' :: rest := by
    rw [List.dropWhile_append_of_pos hline, List.dropWhile_cons_of_neg (by decide)]
  have hskip : skipComment ('#' :: (body ++ '\n' :: rest)) = .ok ('\n' :: rest) := by
    rw [skipComment, htake, hbody, hdrop]
    rfl
  have happend : '#' :: (body ++ ['\n']) ++ rest = '#' :: (body ++ '\n' :: rest) := by simp
  rw [happend, readLines]
  show (skipComment ('#' :: (body ++ '\n' :: rest))).bind _ = _
  rw [hskip]
  rfl

theorem readLines_header (name : String) {line : String} (h : IsBare name.toList)
    (hline : line.toList = '[' :: (name.toList ++ [']', '\n'])) (fuel : Nat) (d : Draft)
    (rest : List Char) :
    readLines (fuel + 1) d (line.toList ++ rest) =
      (d.openTable [name]).bind fun d => readLines fuel d rest := by
  have happend : line.toList ++ rest = '[' :: (name.toList ++ ']' :: '\n' :: rest) := by
    simp [hline]
  rw [happend, readLines, skipSpaces_cons rfl, statement_header h, String.ofList_toList]
  rfl

/-- A key with its value, when the value ends its line. -/
theorem readLines_assign (name : String) {opening : String} {cs rest : List Char} {v : Value}
    (h : IsBare name.toList) (hopening : opening.toList = name.toList ++ [' ', '=', ' '])
    (hv : readValue (skipSpaces cs) = .ok (v, '\n' :: rest)) (fuel : Nat) (d : Draft) :
    readLines (fuel + 1) d (opening.toList ++ cs) =
      (d.assign [name] v).bind fun d => readLines fuel d rest := by
  have happend : opening.toList ++ cs = name.toList ++ ' ' :: '=' :: ' ' :: cs := by
    simp [hopening]
  rw [happend, readLines, skipSpaces_bare h, statement_assign h, hv, String.ofList_toList]
  rfl

/-- A key with a value that cannot be read. -/
theorem readLines_assign_error (name : String) {opening : String} {cs : List Char} {fault : Fault}
    (h : IsBare name.toList) (hopening : opening.toList = name.toList ++ [' ', '=', ' '])
    (hv : readValue (skipSpaces cs) = .error fault) (fuel : Nat) (d : Draft) :
    readLines (fuel + 1) d (opening.toList ++ cs) = .error fault := by
  have happend : opening.toList ++ cs = name.toList ++ ' ' :: '=' :: ' ' :: cs := by
    simp [hopening]
  rw [happend, readLines, skipSpaces_bare h, statement_assign h, hv]
  rfl

theorem readValue_string (cs : List Char) :
    readValue ('"' :: cs) =
      (string ('"' :: cs)).map fun (s, rest) => (.string (String.ofList s), rest) := rfl

/-- A line with a plain text between quotes gives its key that text. -/
theorem readLines_text (name : String) {opening : String} {text : List Char}
    (h : IsBare name.toList)
    (hopening : opening.toList = name.toList ++ [' ', '=', ' ', '"']) (htext : IsPlain text)
    (fuel : Nat) (d : Draft) (rest : List Char) :
    readLines (fuel + 1) d (opening.toList ++ (text ++ ("\"\n".toList ++ rest))) =
      (d.assign [name] (.string (String.ofList text))).bind fun d => readLines fuel d rest := by
  have hvalue : readValue (skipSpaces ('"' :: (text ++ '"' :: '\n' :: rest))) =
      .ok (.string (String.ofList text), '\n' :: rest) := by
    rw [skipSpaces_cons rfl, readValue_string, string_plain htext (by simp)]
    rfl
  have happend : opening.toList ++ (text ++ ("\"\n".toList ++ rest)) =
      (name ++ " = ").toList ++ ('"' :: (text ++ '"' :: '\n' :: rest)) := by
    rw [hopening, String.toList_append, List.append_assoc, List.append_assoc]
    rfl
  rw [happend, readLines_assign name h (by rw [String.toList_append]; rfl) hvalue]

/-! ## What a document has said stays said -/

namespace Table

/-- The table has the string at the end of the path, with a table at every step before. -/
def Says : Table → Key → String → Prop
  | _, [], _ => False
  | t, [key], s => t.lookup key = some (.string s)
  | t, key :: keys, s => ∃ inner, t.lookup key = some (.table inner) ∧ Says inner keys s

/-- Every string of the one table is in the other. -/
def Keeps (t t' : Table) : Prop := ∀ path s, t.Says path s → t'.Says path s

theorem Keeps.refl (t : Table) : t.Keeps t := fun _ _ => id

theorem Keeps.trans {t t' t'' : Table} (h : t.Keeps t') (h' : t'.Keeps t'') : t.Keeps t'' :=
  fun path s hs => h' path s (h path s hs)

theorem lookup_put_self (t : Table) (key : String) (v : Value) :
    (t.put key v).lookup key = some v := by
  simp [put]

theorem lookup_filter_ne (t : Table) {key other : String} (h : other ≠ key) :
    (t.filter (·.1 ≠ key)).lookup other = t.lookup other := by
  induction t with
  | nil => rfl
  | cons entry t ih =>
    obtain ⟨k, v⟩ := entry
    by_cases hk : k = key
    · subst hk
      have hne : (other == k) = false := beq_false_of_ne h
      rw [List.filter_cons_of_neg (by simp), List.lookup_cons, hne]
      exact ih
    · rw [List.filter_cons_of_pos (by simpa using hk), List.lookup_cons, List.lookup_cons, ih]

theorem lookup_put_ne (t : Table) {key other : String} (h : other ≠ key) (v : Value) :
    (t.put key v).lookup other = t.lookup other := by
  have hne : (other == key) = false := beq_false_of_ne h
  rw [put, List.lookup_cons, hne]
  exact lookup_filter_ne t h

/-- A key may be set anew if it had no string and, when it had a table, gets one that keeps the
strings of the old one. -/
theorem keeps_put {t : Table} {key : String} {v : Value}
    (hstring : ∀ s, t.lookup key ≠ some (.string s))
    (htable : ∀ inner, t.lookup key = some (.table inner) →
      ∃ inner', v = .table inner' ∧ Keeps inner inner') :
    t.Keeps (t.put key v) := by
  intro path s hs
  match path with
  | [] => exact hs.elim
  | [k] =>
    by_cases hk : k = key
    · subst hk
      exact absurd hs (hstring s)
    · exact (lookup_put_ne t hk v).trans hs
  | k :: k' :: keys =>
    obtain ⟨inner, hinner, hs⟩ := hs
    by_cases hk : k = key
    · subst hk
      obtain ⟨inner', rfl, hkeeps⟩ := htable inner hinner
      exact ⟨inner', lookup_put_self t k _, hkeeps _ s hs⟩
    · exact ⟨inner, (lookup_put_ne t hk v).trans hinner, hs⟩

/-- A change that keeps the strings of every table keeps those around the table it is made to. -/
theorem keeps_update {throughArrays : Bool} {f : Table → Except Fault Table}
    (hf : ∀ t t', f t = .ok t' → t.Keeps t') {path : Key} {t t' : Table}
    (h : update throughArrays f path t = .ok t') : t.Keeps t' := by
  fun_induction update throughArrays f path t generalizing t' with
  | case1 t => exact hf t t' h
  | case2 key keys t hnone ih =>
    obtain ⟨inner, -, heq⟩ := bind_eq_ok_iff.mp h
    cases heq
    exact keeps_put (by simp [hnone]) (by simp [hnone])
  | case3 key keys t inner hinner ih =>
    obtain ⟨inner', hinner', heq⟩ := bind_eq_ok_iff.mp h
    cases heq
    refine keeps_put (by simp [hinner]) fun old hold => ⟨inner', rfl, ?_⟩
    rw [hinner] at hold
    cases hold
    exact ih hinner'
  | case4 t key keys items hitems last hlast hthrough ih =>
    obtain ⟨inner', -, heq⟩ := bind_eq_ok_iff.mp h
    cases heq
    exact keeps_put (by simp [hitems]) (by simp [hitems])
  | case5 | case6 => cases h

theorem keeps_addNew {key : String} {v : Value} {t t' : Table} (h : addNew key v t = .ok t') :
    t.Keeps t' := by
  unfold addNew at h
  split at h
  · cases h
  · rename_i hnew
    cases h
    have hnone : t.lookup key = none := Option.not_isSome_iff_eq_none.mp hnew
    exact keeps_put (by simp [hnone]) (by simp [hnone])

theorem keeps_appendTable {key : String} {t t' : Table} (h : appendTable key t = .ok t') :
    t.Keeps t' := by
  unfold appendTable at h
  split at h
  · rename_i hnone
    cases h
    exact keeps_put (by simp [hnone]) (by simp [hnone])
  · rename_i items hitems
    cases h
    exact keeps_put (by simp [hitems]) (by simp [hitems])
  · cases h

end Table

theorem ite_malformed_eq_ok_iff {α : Type} {p : Bool} {r : Except Fault α} {a : α} :
    (if p then malformed else r) = .ok a ↔ p = false ∧ r = .ok a := by
  cases p <;> simp

/-- No statement takes back what was said before. -/
theorem Draft.keeps_apply {d d' : Draft} {s : Statement} (h : d.apply s = .ok d') :
    d.entries.Keeps d'.entries := by
  cases s with
  | blank =>
    cases h
    exact .refl _
  | assign k v =>
    obtain ⟨-, h⟩ := ite_malformed_eq_ok_iff.mp h
    obtain ⟨entries, hentries, heq⟩ := bind_eq_ok_iff.mp h
    cases heq
    exact Table.keeps_update (fun _ _ => Table.keeps_addNew) hentries
  | «open» k =>
    obtain ⟨-, h⟩ := ite_malformed_eq_ok_iff.mp h
    obtain ⟨entries, hentries, heq⟩ := bind_eq_ok_iff.mp h
    cases heq
    refine Table.keeps_update (fun t t' ht => ?_) hentries
    cases ht
    exact .refl t
  | append k =>
    obtain ⟨-, h⟩ := ite_malformed_eq_ok_iff.mp h
    obtain ⟨entries, hentries, heq⟩ := bind_eq_ok_iff.mp h
    cases heq
    exact Table.keeps_update (fun _ _ => Table.keeps_appendTable) hentries

/-- A line that is read changes the draft by what it says; the rest is read from there. -/
theorem readLines_inv {fuel : Nat} {d d' : Draft} {cs : List Char}
    (h : readLines (fuel + 1) d cs = .ok d') :
    ∃ s rest d₁, statement (skipSpaces cs) = .ok (s, rest) ∧ d.apply s = .ok d₁ ∧
      (d' = d₁ ∨ ∃ more, readLines fuel d₁ more = .ok d') := by
  rw [readLines] at h
  obtain ⟨⟨s, rest⟩, hs, h⟩ := bind_eq_ok_iff.mp h
  obtain ⟨d₁, hd₁, h⟩ := bind_eq_ok_iff.mp h
  obtain ⟨lineEnd, -, h⟩ := bind_eq_ok_iff.mp h
  refine ⟨s, rest, d₁, hs, hd₁, ?_⟩
  split at h
  · exact .inl (Except.ok.inj h).symm
  · exact .inr ⟨_, h⟩
  · cases h

theorem keeps_of_readLines {fuel : Nat} {d d' : Draft} {cs : List Char}
    (h : readLines fuel d cs = .ok d') : d.entries.Keeps d'.entries := by
  induction fuel generalizing d cs with
  | zero => cases h
  | succ fuel ih =>
    obtain ⟨s, rest, d₁, -, hd₁, rfl | ⟨more, hmore⟩⟩ := readLines_inv h
    · exact Draft.keeps_apply hd₁
    · exact (Draft.keeps_apply hd₁).trans (ih hmore)

/-- If a document can be read in which a line gives a key a string, that string is there. -/
theorem exists_string_of_readLines (name : String) {opening : String} {text rest : List Char}
    (h : IsBare name.toList) (hopening : opening.toList = name.toList ++ [' ', '=', ' ', '"'])
    {fuel : Nat} {d d' : Draft}
    (hread : readLines fuel d (opening.toList ++ (text ++ ("\"\n".toList ++ rest))) = .ok d') :
    ∃ v more d₁, string ('"' :: (text ++ '"' :: '\n' :: rest)) = .ok (v, more) ∧
      d.assign [name] (.string (String.ofList v)) = .ok d₁ ∧ d₁.entries.Keeps d'.entries := by
  have happend : opening.toList ++ (text ++ ("\"\n".toList ++ rest)) =
      name.toList ++ ' ' :: '=' :: ' ' :: '"' :: (text ++ '"' :: '\n' :: rest) := by
    rw [hopening, List.append_assoc]
    rfl
  cases fuel with
  | zero => cases hread
  | succ fuel =>
    rw [happend] at hread
    obtain ⟨st, more, d₁, hst, hd₁, hd'⟩ := readLines_inv hread
    rw [skipSpaces_bare h, statement_assign h, skipSpaces_cons rfl, readValue_string] at hst
    cases hv : string ('"' :: (text ++ '"' :: '\n' :: rest)) with
    | error fault =>
      rw [hv] at hst
      cases hst
    | ok found =>
      obtain ⟨v, more⟩ := found
      rw [hv] at hst
      cases hst
      rw [String.ofList_toList] at hd₁
      refine ⟨v, more, d₁, rfl, hd₁, ?_⟩
      rcases hd' with rfl | ⟨later, hlater⟩
      · exact .refl _
      · exact keeps_of_readLines hlater

/-! ## Line ends -/

theorem joinLineEnds_append {cs : List Char} (h : '\r' ∉ cs) (rest : List Char) :
    joinLineEnds (cs ++ rest) = cs ++ joinLineEnds rest := by
  induction cs with
  | nil => rfl
  | cons c cs ih =>
    rw [List.mem_cons, not_or] at h
    rw [List.cons_append, joinLineEnds, ih h.2]
    · rfl
    · intro _ hc
      exact absurd hc.symm h.1

/-- A quote after the text keeps its last character from being joined. -/
theorem joinLineEnds_text (text rest : List Char) :
    joinLineEnds (text ++ ("\"\n".toList ++ rest)) =
      joinLineEnds text ++ ("\"\n".toList ++ joinLineEnds rest) := by
  fun_induction joinLineEnds text with
  | case1 cs ih =>
    exact congrArg ('\n' :: ·) ih
  | case2 c cs h ih =>
    rw [List.cons_append, joinLineEnds, ih]
    · rfl
    · intro more hc hcs
      cases cs with
      | nil => cases hcs
      | cons d ds => exact h ds hc (by rw [(List.cons.inj hcs).1])
  | case3 => rfl

theorem length_joinLineEnds_le (cs : List Char) : (joinLineEnds cs).length ≤ cs.length := by
  fun_induction joinLineEnds cs with
  | case1 | case2 => simp only [List.length_cons]; omega
  | case3 => exact Nat.le_refl 0

theorem count_joinLineEnds (cs : List Char) : (joinLineEnds cs).count '[' = cs.count '[' := by
  fun_induction joinLineEnds cs with
  | case1 cs ih => simp [ih]
  | case2 c cs _ ih => rw [List.count_cons, List.count_cons, ih]
  | case3 => rfl

end CronFire.Toml
