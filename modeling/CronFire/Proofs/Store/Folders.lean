import CronFire.Proofs.Fault
import CronFire.Store.Folders
import Mathlib.Data.List.Induction
/-!
# Making folders and appending to files

What the changes to a store do to its files.  Making folders changes no file, and is refused only
if a file stands where a folder is needed.  Appending changes one file, and is refused only if a
folder stands there or the file's own folder is missing.

Results:
* `Path.dropLast_mem_trail`: a way leads through the folder of each location on it.
* `foldersMade_parent`: what making the folders of a way does, or why it is refused.
* `append_cases`: what appending does, or why it is refused.
* `admits_iff_of_noDots`: the paths that admit an entry.
-/
namespace CronFire

/-- The locations that a path leads through on its way to the last name, from the root folder
on.  Double dots may lead a path back to a location on its own way. -/
def Path.way (p : Path) : List Location := p.parent.names.scanl Location.step []

namespace Store

def file? (s : Store) (l : Location) : Option ByteArray :=
  match s.find? l with
  | some (.file content) => some content
  | _ => none

def hasFolder (s : Store) (l : Location) : Bool :=
  match s.find? l with
  | some .folder => true
  | _ => false

/-- The file of a path can be appended to, or made: the path leads through no file, and to no
folder. -/
def Admits (s : Store) (p : Path) : Prop :=
  (∀ l ∈ p.way, s.file? l = none) ∧ p.location ∉ p.way ∧ s.hasFolder p.location = false

instance (s : Store) (p : Path) : Decidable (s.Admits p) := by
  unfold Admits
  infer_instance

end Store

/-! ## Ways -/

namespace Path

/-- The way of a path leads through the folder of each location on it. -/
theorem dropLast_mem_trail {names : List String} {l : Location}
    (h : l ∈ names.scanl Location.step []) : l.dropLast ∈ names.scanl Location.step [] := by
  induction names using List.reverseRecOn generalizing l with
  | nil =>
    rw [List.scanl_nil, List.mem_singleton] at h
    simp [h]
  | append_singleton names name ih =>
    have hlast : names.foldl Location.step [] ∈ names.scanl Location.step [] :=
      List.mem_of_getLast? List.getLast?_scanl
    rw [List.scanl_append, List.scanl_singleton, List.tail_cons, List.mem_append,
      List.mem_singleton] at h ⊢
    left
    rcases h with h | rfl
    · exact ih h
    · -- the last step leads back to a location passed before, or on to a new one
      unfold Location.step
      split
      · exact ih (ih hlast)
      · rwa [List.dropLast_concat]

/-- The names of a path lead from its way to its location. -/
theorem exists_location_eq (p : Path) :
    p.location ∈ p.way ∨ ∃ l name, l ∈ p.way ∧ p.location = l ++ [name] := by
  unfold way parent location
  rcases List.eq_nil_or_concat p.names with hnames | ⟨names, name, hnames⟩
  · left
    simp [hnames]
  · have hlast : names.foldl Location.step [] ∈ names.scanl Location.step [] :=
      List.mem_of_getLast? List.getLast?_scanl
    rw [hnames, List.concat_eq_append, List.dropLast_concat, List.foldl_append]
    rw [List.foldl_cons, List.foldl_nil]
    unfold Location.step
    split
    · exact .inl (dropLast_mem_trail hlast)
    · exact .inr ⟨_, name, hlast, rfl⟩

theorem foldl_step {names : List String} (h : ".." ∉ names) (l : Location) :
    names.foldl Location.step l = l ++ names := by
  induction names generalizing l with
  | nil => simp
  | cons name names ih =>
    rw [List.mem_cons, not_or] at h
    rw [List.foldl_cons, Location.step, if_neg (Ne.symm h.1), ih h.2, List.append_assoc,
      List.singleton_append]

/-- Without double dots a path leads where its names say. -/
theorem location_of_noDots {p : Path} (h : ".." ∉ p.names) : p.location = p.names :=
  foldl_step h []

theorem mem_trail_iff {names : List String} (h : ".." ∉ names) {l m : Location} :
    m ∈ names.scanl Location.step l ↔ ∃ front, front <+: names ∧ m = l ++ front := by
  induction names generalizing l with
  | nil => simp
  | cons name names ih =>
    rw [List.mem_cons, not_or] at h
    rw [List.scanl_cons, List.mem_cons, Location.step, if_neg (Ne.symm h.1), ih h.2]
    constructor
    · rintro (rfl | ⟨front, hfront, rfl⟩)
      · exact ⟨[], List.nil_prefix, by simp⟩
      · exact ⟨name :: front, List.cons_prefix_cons.2 ⟨rfl, hfront⟩, by simp⟩
    · rintro ⟨front, hfront, rfl⟩
      cases front with
      | nil => exact .inl (List.append_nil l)
      | cons x front =>
        obtain ⟨rfl, hrest⟩ := List.cons_prefix_cons.1 hfront
        exact .inr ⟨front, hrest, by simp⟩

/-- Without double dots the way of a path is made of the beginnings of its names. -/
theorem mem_way_iff {p : Path} (h : ".." ∉ p.names) {l : Location} :
    l ∈ p.way ↔ l <+: p.names.dropLast := by
  have hway : ".." ∉ p.names.dropLast := fun hmem => h (List.dropLast_subset _ hmem)
  show l ∈ p.names.dropLast.scanl Location.step [] ↔ _
  rw [mem_trail_iff hway]
  simp

end Path

namespace Store

variable {s : Store} {l m : Location}

theorem file?_eq_some_iff {content : ByteArray} :
    s.file? l = some content ↔ s.find? l = some (.file content) := by
  unfold file?
  split
  · rename_i h; simp [h]
  · rename_i h; simpa using fun hl => h content hl

theorem hasFolder_iff : s.hasFolder l = true ↔ s.find? l = some .folder := by
  unfold hasFolder
  split
  · rename_i h; simp [h]
  · rename_i h; simpa using h

theorem ne_nil_of_find?_eq_none (h : s.find? l = none) : l ≠ [] := by
  intro hnil
  subst hnil
  cases h

/-! ## Making folders -/

/-- A new folder changes no file. -/
theorem file?_put_folder (h : s.find? l = none) (m : Location) :
    (s.put l .folder).file? m = s.file? m := by
  unfold file?
  rw [find?_put s (ne_nil_of_find?_eq_none h)]
  by_cases hm : m = l
  · rw [if_pos hm, hm, h]
  · rw [if_neg hm]

/-- What making the folders of a way does: all of them are there after it, and nothing else has
changed, unless a file stands on the way. -/
def FoldersMade (s : Store) (way : List Location) (result : Except StoreFault Store) : Prop :=
  (∃ made, result = .ok made ∧
      (∀ l ∈ way, s.file? l = none ∧ made.find? l = some .folder) ∧
      ∀ l, made.file? l = s.file? l ∧ (l ∉ way → made.find? l = s.find? l)) ∨
    (∃ fault, result = .error fault) ∧ ∃ l ∈ way, s.file? l ≠ none

/-- A folder that is there may stand before a way, also if the first of the way was made just
now. -/
theorem FoldersMade.cons {s s' : Store} {l first : Location} {way : List Location}
    {result : Except StoreFault Store} (hl : s.find? l = some .folder) (hfirst : first ∈ way)
    (hfiles : ∀ m, s'.file? m = s.file? m) (hrest : ∀ m, m ≠ first → s'.find? m = s.find? m)
    (h : s'.FoldersMade way result) : s.FoldersMade (l :: way) result := by
  have hkeep : ∀ m, m ∉ way → s'.find? m = s.find? m := fun m hm =>
    hrest m (ne_of_mem_of_not_mem hfirst hm).symm
  rcases h with ⟨made, hmade, hway, hsame⟩ | ⟨hfault, m, hm, hblocked⟩
  · simp only [hfiles] at hway hsame
    refine .inl ⟨made, hmade, List.forall_mem_cons.2 ⟨⟨by simp [file?, hl], ?_⟩, hway⟩, fun m =>
      ⟨(hsame m).1, fun hm => ?_⟩⟩
    · -- the way may come back to the folder before it
      by_cases hback : l ∈ way
      · exact (hway l hback).2
      · rw [(hsame l).2 hback, hkeep l hback, hl]
    · rw [List.mem_cons, not_or] at hm
      rw [(hsame m).2 hm.2, hkeep m hm.2]
  · rw [hfiles] at hblocked
    exact .inr ⟨hfault, m, List.mem_cons_of_mem _ hm, hblocked⟩

theorem foldersMade_from (s : Store) (l : Location) (names : List String)
    (hl : s.find? l = some .folder) :
    s.FoldersMade (names.scanl Location.step l) (s.makeFoldersFrom l names) := by
  induction names generalizing s l with
  | nil =>
    refine .inl ⟨s, rfl, fun m hm => ?_, fun m => ⟨rfl, fun _ => rfl⟩⟩
    rw [List.scanl_nil, List.mem_singleton] at hm
    subst hm
    exact ⟨by simp [file?, hl], hl⟩
  | cons name names ih =>
    have hfirst : l.step name ∈ names.scanl Location.step (l.step name) :=
      List.mem_of_getElem? List.getElem?_scanl_zero
    rw [List.scanl_cons, makeFoldersFrom]
    cases hnext : s.find? (l.step name) with
    | none =>
      have hput := find?_put s (ne_nil_of_find?_eq_none hnext) .folder
      refine .cons hl hfirst (file?_put_folder hnext) (fun m hm => ?_)
        (ih _ (l.step name) (by rw [hput, if_pos rfl]))
      rw [hput, if_neg hm]
    | some entry =>
      cases entry with
      | folder => exact .cons hl hfirst (fun _ => rfl) (fun _ _ => rfl) (ih s _ hnext)
      | file content =>
        refine .inr ⟨⟨_, rfl⟩, l.step name, List.mem_cons_of_mem _ hfirst, ?_⟩
        rw [file?_eq_some_iff.2 hnext]
        nofun

/-- Making the folders for a path. -/
theorem foldersMade_parent (s : Store) (p : Path) :
    s.FoldersMade p.way (s.makeFolders p.parent) := foldersMade_from s [] p.parent.names rfl

/-! ## Appending -/

theorem file?_put_file (h : l ≠ []) (content : ByteArray) (m : Location) :
    (s.put l (.file content)).file? m = if m = l then some content else s.file? m := by
  unfold file?
  rw [find?_put s h]
  by_cases hm : m = l
  · rw [if_pos hm, if_pos hm]
  · rw [if_neg hm, if_neg hm]

theorem append_folder {p : Path} (content : ByteArray) (h : s.find? p.location = some .folder) :
    s.append p content = .error .isAFolder := by
  simp only [append, h]

/-- Appending to the file of a path whose folder is there: it adds to the file, or makes it, and
changes no other file, unless a folder stands there. -/
theorem append_cases (s : Store) (p : Path) (content : ByteArray)
    (hparent : s.find? p.location.dropLast = some .folder) :
    (s.hasFolder p.location = false ∧ ∃ after, s.append p content = .ok after ∧
        ∀ l, after.file? l =
          if l = p.location then some ((s.file? l).getD .empty ++ content) else s.file? l) ∨
      s.hasFolder p.location = true ∧ ∃ fault, s.append p content = .error fault := by
  have hgrow : ∀ old, (s.file? p.location).getD .empty = old → p.location ≠ [] → ∀ l,
      (s.put p.location (.file (old ++ content))).file? l =
        if l = p.location then some ((s.file? l).getD .empty ++ content) else s.file? l := by
    intro old hold hne l
    rw [file?_put_file hne]
    by_cases hl : l = p.location
    · rw [if_pos hl, if_pos hl, hl, hold]
    · rw [if_neg hl, if_neg hl]
  cases hfind : s.find? p.location with
  | none =>
    have happend : s.append p content = .ok (s.put p.location (.file content)) := by
      simp only [append, hfind, newFileFault?, hparent]
    have hnew := hgrow .empty (by simp [file?, hfind]) (ne_nil_of_find?_eq_none hfind)
    rw [ByteArray.empty_append] at hnew
    exact .inl ⟨by simp [hasFolder, hfind], _, happend, hnew⟩
  | some entry =>
    cases entry with
    | folder => exact .inr ⟨hasFolder_iff.2 hfind, _, append_folder content hfind⟩
    | file old =>
      have happend : s.append p content = .ok (s.put p.location (.file (old ++ content))) := by
        simp only [append, hfind]
      have hne : p.location ≠ [] := by
        intro hnil
        rw [hnil] at hfind
        cases hfind
      exact .inl ⟨by simp [hasFolder, hfind], _, happend, hgrow old (by simp [file?, hfind]) hne⟩

/-- Appending to a path once its folders are made: it works exactly if the store admitted the path
before. -/
theorem append_of_made {made : Store} {p : Path} (content : ByteArray)
    (hway : ∀ l ∈ p.way, s.file? l = none ∧ made.find? l = some .folder)
    (hrest : ∀ l, made.file? l = s.file? l ∧ (l ∉ p.way → made.find? l = s.find? l)) :
    (s.Admits p ∧ ∃ after, made.append p content = .ok after ∧ ∀ l, after.file? l =
        if l = p.location then some ((s.file? l).getD .empty ++ content) else s.file? l) ∨
      ¬ s.Admits p ∧ ∃ fault, made.append p content = .error fault := by
  by_cases hback : p.location ∈ p.way
  · -- the path is a folder of its own way, which was just made
    exact .inr ⟨fun h => h.2.1 hback, _, append_folder content (hway _ hback).2⟩
  · obtain ⟨l, name, hl, hlocation⟩ := p.exists_location_eq.resolve_left hback
    have hparent : made.find? p.location.dropLast = some .folder := by
      rw [hlocation, List.dropLast_concat]
      exact (hway l hl).2
    have hsame : made.hasFolder p.location = s.hasFolder p.location := by
      rw [hasFolder, hasFolder, (hrest _).2 hback]
    rcases append_cases made p content hparent with
      ⟨hfolder, after, happend, hafter⟩ | ⟨hfolder, fault, happend⟩
    · refine .inl ⟨⟨fun l hl => (hway l hl).1, hback, hsame ▸ hfolder⟩, after, happend, fun l => ?_⟩
      rw [hafter, (hrest l).1]
    · refine .inr ⟨fun h => ?_, fault, happend⟩
      rw [hsame, h.2.2] at hfolder
      cases hfolder

/-- A path without double dots admits an entry unless it is a folder or passes through a file. -/
theorem admits_iff_of_noDots {p : Path} (h : ".." ∉ p.names) : s.Admits p ↔
    s.hasFolder p.names = false ∧
      ∀ l, l <+: p.names → l ≠ p.names → s.file? l = none := by
  unfold Admits
  simp only [Path.location_of_noDots h, Path.mem_way_iff h]
  rcases List.eq_nil_or_concat p.names with hnames | ⟨names, name, hnames⟩
  · -- the root folder is always there
    have hroot : s.hasFolder [] ≠ false := by simp [hasFolder, find?]
    rw [hnames]
    exact iff_of_false (fun hx => hroot hx.2.2) fun hx => hroot hx.1
  · rw [hnames, List.concat_eq_append, List.dropLast_concat]
    have hlonger : ¬ names ++ [name] <+: names := by
      intro hx
      have := hx.length_le
      rw [List.length_append, List.length_singleton] at this
      omega
    constructor
    · rintro ⟨hway, -, hfolder⟩
      refine ⟨hfolder, fun l hl hne => hway l ?_⟩
      exact (List.prefix_concat_iff.1 hl).resolve_left hne
    · rintro ⟨hfolder, hway⟩
      refine ⟨fun l hl => hway l (hl.trans (List.prefix_append _ _)) ?_, hlonger, hfolder⟩
      exact fun he => hlonger (he ▸ hl)

end Store

end CronFire
