import CronFire.Proofs.Journal.Encoded
import CronFire.Proofs.Store.Folders
/-!
# The journal loses no entry

A call notes a message: its entry goes, whole, to the end of one file, or is printed if that file
does not admit it.  Earlier calls decide what later ones find, since they make files where others
need folders and folders where others need files.  So the claim on a run of calls is made call by
call, with the store that each call finds.

The one exception are strays.  An entry that holds some breaks off in its file where the first of
them comes, and the call fails.

Results:
* `writeEntry_cases`, `record_cases`: what one call does to the files, and what it prints.
* `file?_storeAfterAll`: what a run leaves in each file.
* `calls_keep_entries_iff`: the runs that keep all entries, what the others leave, and what happens
  on a terminal that is too narrow.
* `not_calls_keep_entries_strayByte`: a byte that could not be decoded splits an entry.
-/
namespace CronFire.Journal

open Text

structure Call where
  now : Moment
  note : Note

def Call.path (home : Path) (c : Call) : Path := target home c.now c.note

section
variable [Strays]

/-! ## One call -/

/-- The path can name a file that the store admits. -/
def Reaches (s : Store) (p : Path) : Prop := p.names.all isNamable = true ∧ s.Admits p

instance (s : Store) (p : Path) : Decidable (Reaches s p) := by
  unfold Reaches
  infer_instance

/-- A text is not written because its path is a folder or passes through a file.  The path of its
folder can be named, and so can the path itself unless its folder is not there. -/
def Refuses (s : Store) (p : Path) : Prop :=
  p.parent.names.all isNamable = true ∧ ¬ s.Admits p ∧
    (p.names.all isNamable = true ∨ ∃ l ∈ p.way, s.file? l ≠ none)

theorem isNamable_parent {p : Path} (h : p.names.all isNamable = true) :
    p.parent.names.all isNamable = true :=
  List.all_eq_true.2 fun name hname => List.all_eq_true.1 h name (List.dropLast_subset _ hname)

/-- A path that can be named reaches its file or is refused. -/
theorem reaches_or_refuses {s : Store} {p : Path} (h : p.names.all isNamable = true) :
    Reaches s p ∨ Refuses s p := by
  by_cases hadmits : s.Admits p
  · exact .inl ⟨h, hadmits⟩
  · exact .inr ⟨isNamable_parent h, hadmits, .inl h⟩

/-- If the folders of a path were made, a text is appended exactly if the path reaches its file. -/
theorem writeEntry_of_made {s made : Store} {p : Path} (text : String)
    (hparent : p.parent.names.all isNamable = true) (hmade : s.makeFolders p.parent = .ok made)
    (hway : ∀ l ∈ p.way, s.file? l = none ∧ made.find? l = some .folder)
    (hrest : ∀ l, made.file? l = s.file? l ∧ (l ∉ p.way → made.find? l = s.find? l)) :
    (Reaches s p ∧ ∃ after, writeEntry s p text = (after, .ok true) ∧ ∀ l, after.file? l =
        if l = p.location then some ((s.file? l).getD .empty ++ text.toUTF8) else s.file? l) ∨
      ¬ Reaches s p ∧ ∃ result, writeEntry s p text = (made, result) ∧
        (Refuses s p ∧ result = .ok false ∨ ¬ Refuses s p ∧ result = .error .unencodable) := by
  cases hnamable : p.names.all isNamable with
  | false =>
    have hwrite : writeEntry s p text = (made, .error .unencodable) := by
      simp only [writeEntry, hparent, hmade, hnamable]
      rfl
    refine .inr ⟨fun h => ?_, _, hwrite, .inr ⟨fun h => ?_, rfl⟩⟩
    · exact absurd h.1 (by rw [hnamable]; decide)
    · obtain ⟨l, hl, hfile⟩ := h.2.2.resolve_left (by rw [hnamable]; decide)
      exact hfile (hway l hl).1
  | true =>
    rcases Store.append_of_made text.toUTF8 hway hrest with
      ⟨hadmits, after, happend, hafter⟩ | ⟨hrefused, fault, happend⟩
    · have hwrite : writeEntry s p text = (after, .ok true) := by
        simp only [writeEntry, hparent, hmade, hnamable, happend]
        rfl
      exact .inl ⟨⟨hnamable, hadmits⟩, after, hwrite, hafter⟩
    · have hwrite : writeEntry s p text = (made, .ok false) := by
        simp only [writeEntry, hparent, hmade, hnamable, happend]
        rfl
      exact .inr ⟨fun h => hrefused h.2, _, hwrite,
        .inl ⟨⟨hparent, hrefused, .inl hnamable⟩, rfl⟩⟩

/-- A text is appended to the file of its path exactly if the path reaches it; no other file is
changed. -/
theorem writeEntry_cases (s : Store) (p : Path) (text : String) :
    (Reaches s p ∧ ∃ after, writeEntry s p text = (after, .ok true) ∧ ∀ l, after.file? l =
        if l = p.location then some ((s.file? l).getD .empty ++ text.toUTF8) else s.file? l) ∨
      ¬ Reaches s p ∧ ∃ after result, writeEntry s p text = (after, result) ∧
        (∀ l, after.file? l = s.file? l) ∧
        (Refuses s p ∧ result = .ok false ∨ ¬ Refuses s p ∧ result = .error .unencodable) := by
  cases hparent : p.parent.names.all isNamable with
  | false =>
    have hwrite : writeEntry s p text = (s, .error .unencodable) := by
      simp only [writeEntry, hparent]
      rfl
    have hunnamable : p.parent.names.all isNamable ≠ true := by
      rw [hparent]
      decide
    exact .inr ⟨fun h => hunnamable (isNamable_parent h.1), s, _, hwrite, fun _ => rfl,
      .inr ⟨fun h => hunnamable h.1, rfl⟩⟩
  | true =>
    rcases s.foldersMade_parent p with
      ⟨made, hmade, hway, hrest⟩ | ⟨⟨fault, hfault⟩, l, hl, hfile⟩
    · exact (writeEntry_of_made text hparent hmade hway hrest).imp_right
        fun ⟨hreaches, result, hwrite, hresult⟩ =>
          ⟨hreaches, made, result, hwrite, fun l => (hrest l).1, hresult⟩
    · have hrefused : ¬ s.Admits p := fun h => hfile (h.1 l hl)
      have hwrite : writeEntry s p text = (s, .ok false) := by
        simp only [writeEntry, hparent, hfault]
        rfl
      exact .inr ⟨fun h => hrefused h.2, s, _, hwrite, fun _ => rfl,
        .inl ⟨⟨hparent, hrefused, .inr ⟨l, hl, hfile⟩⟩, rfl⟩⟩

/-- The entry of a call was appended, whole, to one file, and was printed only if asked for. -/
structure Written (home : Path) (c : Call) (text : String) (found after : Store)
    (printed : String) : Prop where
  admits : found.Admits (c.path home)
  files : ∀ l, after.file? l = if l = (c.path home).location then
    some ((found.file? l).getD .empty ++ text.toUTF8) else found.file? l
  output : printed = if c.note.print then text ++ "\n" else ""

/-- The entry of a call was printed, since its file did not admit it, and no file has changed.
Without double dots that is because its path is a folder or passes through a file. -/
structure Diverted (home : Path) (c : Call) (text : String) (found after : Store)
    (printed : String) : Prop where
  refused : ¬ found.Admits (c.path home)
  blocked : ".." ∉ (c.path home).names → found.hasFolder (c.path home).names = true ∨
    ∃ l, l <+: (c.path home).names ∧ l ≠ (c.path home).names ∧ found.file? l ≠ none
  files : ∀ l, after.file? l = found.file? l
  output : printed = text ++ "\n"

/-- The entry of a call can be encoded, and its path reaches a file or is refused. -/
structure Call.Fits (home : Path) (found : Store) (c : Call) : Prop where
  caller : isEncodable c.note.caller = true
  message : isEncodable c.note.message = true
  path : Reaches found (c.path home) ∨ Refuses found (c.path home)

omit [Strays] in
theorem blocked_of_refused {found : Store} {p : Path} (h : ¬ found.Admits p)
    (hdots : ".." ∉ p.names) : found.hasFolder p.names = true ∨
      ∃ l, l <+: p.names ∧ l ≠ p.names ∧ found.file? l ≠ none := by
  rw [Store.admits_iff_of_noDots hdots, not_and_or] at h
  push Not at h
  exact h.imp_left fun hfolder => by simpa using hfolder

section
variable (home : Path) {columns : Nat} {c : Call} {text : String} (found : Store)
  (htext : entryText c.now columns c.note = .ok text)
include htext

theorem record_of_error {after : Store} {fault : NoteFault}
    (hwrite : writeEntry found (c.path home) (encodedText c.now columns c.note) =
      (after, .error fault)) :
    record home c.now columns found c.note = (after, .error fault) := by
  rw [Call.path] at hwrite
  simp only [record, htext, hwrite]

theorem record_of_ok {after : Store} {written : Bool}
    (hwrite : writeEntry found (c.path home) (encodedText c.now columns c.note) =
      (after, .ok written)) :
    record home c.now columns found c.note = (after, if isEncodable text then
      .ok (if c.note.print || !written then text ++ "\n" else "") else .error .unencodable) := by
  rw [Call.path] at hwrite
  simp only [record, htext, hwrite]
  cases isEncodable text <;> rfl

/-- What a call does to the files: the part of its entry that can be written is appended. -/
theorem file?_record (l : Location) :
    (record home c.now columns found c.note).1.file? l =
      if (c.path home).location = l ∧ Reaches found (c.path home) then
        some ((found.file? l).getD .empty ++ (encodedText c.now columns c.note).toUTF8)
      else found.file? l := by
  rcases writeEntry_cases found (c.path home) (encodedText c.now columns c.note) with
    ⟨hreaches, after, hwrite, hfiles⟩ | ⟨hreaches, after, result, hwrite, hfiles, -⟩
  · rw [record_of_ok home found htext hwrite, hfiles]
    exact if_congr ⟨fun h => ⟨h.symm, hreaches⟩, fun h => h.1.symm⟩ rfl rfl
  · have hstore : (record home c.now columns found c.note).1 = after := by
      cases result with
      | error fault => rw [record_of_error home found htext hwrite]
      | ok written => rw [record_of_ok home found htext hwrite]
    rw [hstore, hfiles, if_neg fun h => hreaches h.2]

theorem isEncodable_iff : isEncodable text = true ↔
    isEncodable c.note.caller = true ∧ isEncodable c.note.message = true := by
  rw [← (entryText_eq_ok_iff.1 htext).2, isEncodable_entry, Bool.and_eq_true]

/-- A call keeps its entry if that fits, and fails otherwise. -/
theorem record_cases :
    (c.Fits home found ∧ ∃ after printed,
        record home c.now columns found c.note = (after, .ok printed) ∧
        (Written home c text found after printed ∨ Diverted home c text found after printed)) ∨
      ¬ c.Fits home found ∧ ∃ after,
        record home c.now columns found c.note = (after, .error .unencodable) := by
  have hiff := isEncodable_iff htext
  rcases writeEntry_cases found (c.path home) (encodedText c.now columns c.note) with
    ⟨hreaches, after, hwrite, hfiles⟩ |
      ⟨hreaches, after, result, hwrite, hfiles, ⟨hrefuses, rfl⟩ | ⟨hrefuses, rfl⟩⟩
  · have hrecord := record_of_ok home found htext hwrite
    by_cases hencodable : isEncodable text = true
    · obtain ⟨hcaller, hmessage⟩ := hiff.1 hencodable
      rw [encodedText_eq_iff.2 ⟨hcaller, hmessage⟩, (entryText_eq_ok_iff.1 htext).2] at hfiles
      rw [if_pos hencodable, Bool.not_true, Bool.or_false] at hrecord
      exact .inl ⟨⟨hcaller, hmessage, .inl hreaches⟩, after, _, hrecord,
        .inl ⟨hreaches.2, hfiles, rfl⟩⟩
    · rw [if_neg hencodable] at hrecord
      exact .inr ⟨fun h => hencodable (hiff.2 ⟨h.caller, h.message⟩), after, hrecord⟩
  · have hrecord := record_of_ok home found htext hwrite
    by_cases hencodable : isEncodable text = true
    · obtain ⟨hcaller, hmessage⟩ := hiff.1 hencodable
      rw [if_pos hencodable, Bool.not_false, Bool.or_true, if_pos rfl] at hrecord
      exact .inl ⟨⟨hcaller, hmessage, .inr hrefuses⟩, after, _, hrecord,
        .inr ⟨hrefuses.2.1, blocked_of_refused hrefuses.2.1, hfiles, rfl⟩⟩
    · rw [if_neg hencodable] at hrecord
      exact .inr ⟨fun h => hencodable (hiff.2 ⟨h.caller, h.message⟩), after, hrecord⟩
  · exact .inr ⟨fun h => h.path.elim hreaches hrefuses, after,
      record_of_error home found htext hwrite⟩

omit htext in
theorem record_of_narrow (h : columns ≤ margin) (c : Call) :
    record home c.now columns found c.note = (found, .error .tooNarrow) := by
  simp only [record, entryText_eq_error h]

end

omit [Strays] in
/-- What is printed of an entry depends on the store that is found. -/
theorem printed_eq_of_noted {home : Path} {c : Call} {text printed printed' : String}
    {found after after' : Store}
    (h : Written home c text found after printed ∨ Diverted home c text found after printed)
    (h' : Written home c text found after' printed' ∨ Diverted home c text found after' printed') :
    printed = printed' := by
  rcases h with h | h <;> rcases h' with h' | h'
  · rw [h.output, h'.output]
  · exact absurd h.admits h'.refused
  · exact absurd h'.admits h.refused
  · rw [h.output, h'.output]

/-! ## A run of calls -/

/-- What a file holds, if there is one, after some texts were appended. -/
def grown (old : Option ByteArray) (texts : List String) : Option ByteArray :=
  if texts = [] then old else some (old.getD .empty ++ (String.join texts).toUTF8)

omit [Strays] in
theorem grown_cons (old : Option ByteArray) (text : String) (texts : List String) :
    grown (some (old.getD .empty ++ text.toUTF8)) texts = grown old (text :: texts) := by
  unfold grown
  rw [if_neg (List.cons_ne_nil text texts), String.join_cons]
  split
  · rename_i hnil
    simp [hnil]
  · simp [String.toByteArray_append, ByteArray.append_assoc]

section
variable (home : Path) (columns : Nat)

/-- The store after a call, also if that fails. -/
def storeAfter (s : Store) (c : Call) : Store := (record home c.now columns s c.note).1

def storeAfterAll (s : Store) (calls : List Call) : Store :=
  calls.foldl (storeAfter home columns) s

/-- The calls of a run, each with the store that it finds. -/
def encounters : Store → List Call → List (Store × Call)
  | _, [] => []
  | s, c :: calls => (s, c) :: encounters (storeAfter home columns s c) calls

/-- The entries, in order, of those calls of a run whose path leads to a location and is admitted
by the store that the call finds. -/
def entriesAt (l : Location) (s : Store) (calls : List Call) : List String :=
  (encounters home columns s calls).filterMap fun (found, c) =>
    if (c.path home).location = l ∧ found.Admits (c.path home) then
      (entryText c.now columns c.note).toOption
    else none

/-- What is written of entries, in order, by those calls of a run whose path reaches a location. -/
def partsAt (l : Location) (s : Store) (calls : List Call) : List String :=
  (encounters home columns s calls).filterMap fun (found, c) =>
    if (c.path home).location = l ∧ Reaches found (c.path home) then
      some (encodedText c.now columns c.note)
    else none

/-- No entry of a run is lost, split or doubled.  Each file holds what it held and then the entries
of the calls that went to it; each call appends its entry to one file and prints it only if asked
for, or changes no file and prints it. -/
structure KeepsEntries (s : Store) (calls : List Call) : Prop where
  files : ∀ l, (storeAfterAll home columns s calls).file? l =
    grown (s.file? l) (entriesAt home columns l s calls)
  calls : ∀ found c, (found, c) ∈ encounters home columns s calls →
    ∃ text after printed, entryText c.now columns c.note = .ok text ∧
      IsEntry c.now columns c.note text ∧
      record home c.now columns found c.note = (after, .ok printed) ∧
      (Written home c text found after printed ∨ Diverted home c text found after printed)

end

section
variable {home : Path} {columns : Nat} {s : Store} {calls : List Call}

/-- What a run leaves in each file: what was there, and then what was written of the entries that
went to it. -/
theorem file?_storeAfterAll (h : margin < columns) (l : Location) (s : Store)
    (calls : List Call) : (storeAfterAll home columns s calls).file? l =
      grown (s.file? l) (partsAt home columns l s calls) := by
  induction calls generalizing s with
  | nil => simp [storeAfterAll, partsAt, encounters, grown]
  | cons c calls ih =>
    obtain ⟨text, htext⟩ := exists_entryText h c.now c.note
    have hparts : partsAt home columns l s (c :: calls) =
        (if (c.path home).location = l ∧ Reaches s (c.path home) then
          [encodedText c.now columns c.note] else []) ++
          partsAt home columns l (storeAfter home columns s c) calls := by
      unfold partsAt
      rw [encounters, List.filterMap_cons]
      dsimp only
      by_cases hx : (c.path home).location = l ∧ Reaches s (c.path home)
      · simp only [if_pos hx, List.singleton_append]
      · simp only [if_neg hx, List.nil_append]
    have hrun : storeAfterAll home columns s (c :: calls) =
        storeAfterAll home columns (storeAfter home columns s c) calls := rfl
    rw [hrun, ih, hparts, storeAfter, file?_record home s htext]
    by_cases hx : (c.path home).location = l ∧ Reaches s (c.path home)
    · rw [if_pos hx, if_pos hx, List.singleton_append, grown_cons]
    · rw [if_neg hx, if_neg hx, List.nil_append]

/-- If all entries fit, what is written of them is the entries. -/
theorem partsAt_eq (h : margin < columns) (l : Location)
    (hfits : ∀ found c, (found, c) ∈ encounters home columns s calls → c.Fits home found) :
    partsAt home columns l s calls = entriesAt home columns l s calls := by
  unfold partsAt entriesAt
  refine List.filterMap_congr fun (found, c) hmem => ?_
  have hc := hfits found c hmem
  have hpath : Reaches found (c.path home) ↔ found.Admits (c.path home) :=
    ⟨fun hreaches => hreaches.2, fun hadmits =>
      hc.path.resolve_right fun hrefuses => hrefuses.2.1 hadmits⟩
  obtain ⟨text, htext⟩ := exists_entryText h c.now c.note
  have hpart : some (encodedText c.now columns c.note) =
      (entryText c.now columns c.note).toOption := by
    rw [encodedText_eq_iff.2 ⟨hc.caller, hc.message⟩, (entryText_eq_ok_iff.1 htext).2, htext]
    rfl
  simp only [hpath, hpart]

/-- On a terminal that is too narrow a run leaves the store as it is. -/
theorem narrow_run (h : columns ≤ margin) (s : Store) (calls : List Call) :
    storeAfterAll home columns s calls = s ∧
      ∀ found c, (found, c) ∈ encounters home columns s calls → found = s := by
  induction calls with
  | nil => exact ⟨rfl, by simp [encounters]⟩
  | cons c calls ih =>
    have hafter : storeAfter home columns s c = s := by rw [storeAfter, record_of_narrow home s h]
    rw [storeAfterAll, List.foldl_cons, encounters, hafter]
    refine ⟨ih.1, fun found c' hmem => ?_⟩
    rcases List.mem_cons.1 hmem with heq | hmem
    · exact congrArg Prod.fst heq
    · exact ih.2 found c' hmem

/-- A run keeps all entries exactly if each fits. -/
theorem keepsEntries_iff (h : margin < columns) : KeepsEntries home columns s calls ↔
    ∀ found c, (found, c) ∈ encounters home columns s calls → c.Fits home found := by
  constructor
  · intro hkeeps found c hmem
    obtain ⟨text, after, printed, htext, -, hrecord, -⟩ := hkeeps.calls found c hmem
    refine ((record_cases home found htext).resolve_right ?_).1
    rintro ⟨-, after', hfailed⟩
    cases hrecord.symm.trans hfailed
  · refine fun hfits => ⟨fun l => ?_, fun found c hmem => ?_⟩
    · rw [file?_storeAfterAll h, partsAt_eq h l hfits]
    · obtain ⟨text, htext⟩ := exists_entryText h c.now c.note
      obtain ⟨-, after, printed, hrecord, hcases⟩ :=
        (record_cases home found htext).resolve_right fun hx => hx.1 (hfits found c hmem)
      exact ⟨text, after, printed, htext, isEntry_of_entryText htext, hrecord, hcases⟩

/-- **When no entry is lost, split or doubled.** A run of calls keeps all entries exactly if each
fits: no stray is in the message or the name of the caller, and none in the path keeps it from
naming a file.  Any other run leaves in each file what could be written of the entries that went to
it, up to the first line with a stray.  On a terminal too narrow for an entry every call fails and
no file changes. -/
theorem calls_keep_entries_iff (home : Path) (columns : Nat) (s : Store) (calls : List Call) :
    (margin < columns →
      (∀ l, (storeAfterAll home columns s calls).file? l =
        grown (s.file? l) (partsAt home columns l s calls)) ∧
      (KeepsEntries home columns s calls ↔
        ∀ found c, (found, c) ∈ encounters home columns s calls → c.Fits home found)) ∧
    (columns ≤ margin → storeAfterAll home columns s calls = s ∧
      ∀ found c, (found, c) ∈ encounters home columns s calls → found = s ∧
        record home c.now columns found c.note = (found, .error .tooNarrow)) := by
  refine ⟨fun hwide => ⟨fun l => file?_storeAfterAll hwide l s calls, keepsEntries_iff hwide⟩,
    fun hnarrow => ?_⟩
  obtain ⟨hstore, hfound⟩ := @narrow_run _ home columns hnarrow s calls
  exact ⟨hstore, fun found c hmem => ⟨hfound found c hmem, record_of_narrow home found hnarrow c⟩⟩

end

end

section
attribute [local instance] Strays.none

/-- A file named first keeps a later note from going below it, and a folder that was made for a
file keeps the note that names it from being written; on six columns nothing is. -/
theorem calls_keep_entries_iff_blocked :
    let home := Path.read "/h"
    let calls := ["a", "a/b", "/h/a", "c/d", "c"].map fun path =>
      Call.mk { date := ⟨2026, 1, 1⟩, time := ⟨0, 0, 0⟩ }
        { kind := .log, caller := "main", message := "done", path := some path }
    KeepsEntries home 80 {} calls ∧
      (entriesAt home 80 ["h", "a"] {} calls).length = 2 ∧
      (storeAfterAll home 80 {} calls).file? ["h", "a", "b"] = none ∧
      (storeAfterAll home 80 {} calls).file? ["h", "c"] = none ∧
      storeAfterAll home 6 {} calls = {} := by
  intro home calls
  obtain ⟨hfiles, hkeeps⟩ := (calls_keep_entries_iff home 80 {} calls).1 (by decide)
  have hnarrow := (calls_keep_entries_iff home 6 {} calls).2 (by decide) |>.1
  have hbelow : partsAt home 80 ["h", "a", "b"] {} calls = [] := by decide +kernel
  have hfolder : partsAt home 80 ["h", "c"] {} calls = [] := by decide +kernel
  refine ⟨hkeeps.2 fun found c _ =>
    ⟨isEncodable_of_none _, isEncodable_of_none _, reaches_or_refuses ?_⟩,
    by decide +kernel, ?_, ?_, hnarrow⟩
  · exact List.all_eq_true.2 fun name _ => isNamable_of_none name
  · rw [hfiles, hbelow, grown, if_pos rfl]
    rfl
  · rw [hfiles, hfolder, grown, if_pos rfl]
    rfl

end

section

/-- What stands for the byte 255 where that cannot be decoded. -/
def strayByte : Char := Char.ofNat 0xf00ff

@[reducible] def onlyStrayByte : Strays where
  code? c := if c = strayByte then some 0xdcff else none
  isSurrogate h := by
    obtain ⟨-, h⟩ := Option.ite_none_right_eq_some.1 h
    obtain rfl := Option.some.inj h
    decide
  isPrivate h := by
    obtain ⟨rfl, -⟩ := Option.ite_none_right_eq_some.1 h
    decide

attribute [local instance] onlyStrayByte

/-- Of a message with a byte that could not be decoded only the heading of the entry is written. -/
theorem not_calls_keep_entries_strayByte :
    let home := Path.read "/h"
    let call := Call.mk { date := ⟨2026, 1, 1⟩, time := ⟨0, 0, 0⟩ }
      { kind := .log, caller := "main", message := String.ofList ['b', 'a', 'd', ' ', strayByte] }
    ¬ KeepsEntries home 80 {} [call] ∧
      (storeAfterAll home 80 {} [call]).file? ["h", "logs", "log_260101.md"] =
        some "- 00:00:00 log_msg (main):  ".toUTF8 ∧
      (record home call.now 80 {} call.note).2 = .error .unencodable := by
  intro home call
  refine ⟨fun hkeeps => ?_, by decide +kernel, by decide +kernel⟩
  have hfits := (keepsEntries_iff (by decide)).1 hkeeps {} call (List.mem_singleton.2 rfl)
  exact absurd hfits.message (by decide +kernel)

end

end CronFire.Journal
