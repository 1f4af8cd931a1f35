import CronFire.Proofs.Settings.Reload
import CronFire.Proofs.Store.Folders
/-!
# File, cache and result agree

After a load the settings are in three places: in the file, with the keeper, and with whoever
asked for them.  However the load went, they are the same in all three.  The keeper goes on to
answer with them until it loads again, whatever becomes of the file meanwhile.  A load that fails
changes neither.  Settings of plain texts that are saved are found again as they were.

Results:
* `loaded_load`: what a load does to the keeper and, if it fails, to the store.
* `keeper_useAll`: what was loaded stays with the keeper until the next load.
* `find?_ensure`: a file that is there is left alone.
* `load_agrees`: file, cache and result after a load.
* `load_saved`: saving, then loading.
-/
namespace CronFire

theorem eq_toUTF8_of_fromUTF8? {bytes : ByteArray} {text : String}
    (h : String.fromUTF8? bytes = some text) : bytes = text.toUTF8 := by
  unfold String.fromUTF8? at h
  split at h
  · cases h
    rfl
  · cases h

namespace Keeper

theorem file?_of_holds {k : Keeper} {s : Store} {text : String} (h : k.Holds s text) :
    s.file? k.path.location = some text.toUTF8 := by
  obtain ⟨bytes, hfile, htext⟩ := h
  rw [Store.file?_eq_some_iff, hfile, eq_toUTF8_of_fromUTF8? htext]

/-! ## The keeper after a load -/

/-- What a load does to the keeper and the files. -/
inductive Loaded (k : Keeper) (s : Store) : Outcome Settings → Prop
  /-- It gives settings, and the keeper remembers them. -/
  | found {s' : Store} {notices : List Notice} {c : Settings} :
      Loaded k s ⟨{ k with cached := some c }, s', notices, .ok c⟩
  /-- It gives none, and the keeper and all files are as before. -/
  | failed {s' : Store} {notices : List Notice} {fault : KeeperFault} :
      (∀ l, s'.file? l = s.file? l) → Loaded k s ⟨k, s', notices, .error fault⟩

section
variable (k : Keeper) (s : Store)

theorem parent_path : k.path.parent = k.home := by
  rw [path, settingsPath, Path.child, Path.parent, List.dropLast_concat]

/-- What making the folders of a home folder does. -/
theorem makeFolders_inv {made : Store} (h : s.makeFolders k.home = .ok made) :
    (∀ l ∈ k.path.way, s.file? l = none ∧ made.find? l = some .folder) ∧
      ∀ l, made.file? l = s.file? l ∧ (l ∉ k.path.way → made.find? l = s.find? l) := by
  have hmade := s.foldersMade_parent k.path
  rw [k.parent_path, h] at hmade
  rcases hmade with ⟨made', hok, hinv⟩ | ⟨⟨fault, herror⟩, -⟩
  · cases hok
    exact hinv
  · cases herror

theorem loaded_create : k.Loaded s (k.create s) := by
  unfold create
  cases hfolders : s.makeFolders k.home with
  | error fault => exact .failed fun _ => rfl
  | ok made =>
    dsimp only
    cases made.write k.path ({} : Settings).render.toUTF8 with
    | error fault => exact .failed fun l => ((k.makeFolders_inv s hfolders).2 l).1
    | ok written => exact .found

theorem loaded_refresh (text : String) (notices : List Notice) (settings : Settings) :
    k.Loaded s (k.refresh s text notices settings) := by
  cases hlong : settings.countTooLong with
  | true =>
    unfold refresh
    rw [document_of_long hlong]
    exact .failed fun _ => rfl
  | false =>
    by_cases hdocument : IsDocument text settings
    · rw [refresh_of_isDocument hlong hdocument]
      exact .found
    · rw [refresh_of_not_isDocument hlong hdocument]
      cases s.write k.path settings.render.toUTF8 with
      | error fault => exact .failed fun _ => rfl
      | ok written => exact .found

/-- A load that gives settings leaves them with the keeper; one that fails changes nothing. -/
theorem loaded_load : k.Loaded s (k.load s) := by
  unfold load
  split
  · exact k.loaded_create s
  · split
    · exact .failed fun _ => rfl
    · split
      · exact .failed fun _ => rfl
      · split
        · exact .failed fun _ => rfl
        · exact k.loaded_refresh s _ _ {}
        · exact k.loaded_refresh s _ _ _

end

/-! ## Between two loads -/

/-- What may happen between two loads: the keeper is used otherwise, or someone else changes what
lies in the store. -/
inductive Use where
  | ensure (withFile : Bool)
  | save (settings : Settings)
  | saveTable (t : Toml.Table)
  | settings
  | change (s : Store)

def use (k : Keeper) (s : Store) : Use → Keeper × Store
  | .ensure withFile => ((k.ensure s withFile).keeper, (k.ensure s withFile).store)
  | .save settings => ((k.save s settings).keeper, (k.save s settings).store)
  | .saveTable t => ((k.saveTable s t).keeper, (k.saveTable s t).store)
  | .settings => ((k.settings s).keeper, (k.settings s).store)
  | .change s' => (k, s')

def useAll (k : Keeper) (s : Store) (uses : List Use) : Keeper × Store :=
  uses.foldl (fun state u => state.1.use state.2 u) (k, s)

section
variable {k : Keeper} {c : Settings}

theorem keeper_save (k : Keeper) (s : Store) (settings : Settings) :
    (k.save s settings).keeper = k := by
  unfold save
  split
  · rfl
  · split <;> rfl

theorem keeper_ensure (k : Keeper) (s : Store) (withFile : Bool) :
    (k.ensure s withFile).keeper = k := by
  unfold ensure
  split
  · rfl
  · split
    · exact keeper_save k _ {}
    · rfl

theorem keeper_saveTable (k : Keeper) (s : Store) (t : Toml.Table) :
    (k.saveTable s t).keeper = k := by
  unfold saveTable
  split
  · rfl
  · exact keeper_save k s _

theorem settings_of_cached (h : k.cached = some c) (s : Store) :
    k.settings s = ⟨k, s, [], .ok c⟩ := by
  rw [settings, h]

/-- No use of a keeper but a load changes what it remembers. -/
theorem keeper_use (h : k.cached = some c) (s : Store) (u : Use) : (k.use s u).1 = k := by
  cases u with
  | ensure withFile => simp only [use, keeper_ensure]
  | save settings => simp only [use, keeper_save]
  | saveTable t => simp only [use, keeper_saveTable]
  | settings => simp only [use, settings_of_cached h]
  | change s' => simp only [use]

theorem keeper_useAll (h : k.cached = some c) (s : Store) (uses : List Use) :
    (k.useAll s uses).1 = k := by
  unfold useAll
  induction uses generalizing s with
  | nil => rfl
  | cons u uses ih =>
    have hstep : k.use s u = (k, (k.use s u).2) := Prod.ext (keeper_use h s u) rfl
    rw [List.foldl_cons, hstep]
    exact ih (k.use s u).2

end

/-! ## A file that is there -/

/-- Making sure that there is a file leaves alone what lies in its place. -/
theorem find?_ensure (k : Keeper) (s : Store) (withFile : Bool) {entry : Entry}
    (h : s.find? k.path.location = some entry) :
    (k.ensure s withFile).store.find? k.path.location = some entry := by
  unfold ensure
  split
  · exact h
  · rename_i made hfolders
    obtain ⟨hway, hrest⟩ := k.makeFolders_inv s hfolders
    have hmade : made.find? k.path.location = some entry := by
      by_cases hmem : k.path.location ∈ k.path.way
      · -- no file lies on the way, so the entry is a folder
        obtain ⟨hfile, hfolder⟩ := hway _ hmem
        cases entry with
        | folder => exact hfolder
        | file content =>
          rw [Store.file?_eq_some_iff.2 h] at hfile
          cases hfile
      · rw [(hrest _).2 hmem, h]
    have hthere : made.exists? k.path.location = true := by
      rw [Store.exists?, hmade]
      rfl
    rw [hthere, Bool.not_true, Bool.and_false, if_neg Bool.false_ne_true]
    exact hmade

/-! ## File, cache and result -/

theorem load_ok {k : Keeper} {s : Store} {c : Settings} (h : (k.load s).result = .ok c) :
    (k.load s).keeper.cached = some c := by
  have hload := k.loaded_load s
  generalize k.load s = o at h hload ⊢
  cases hload with
  | found =>
    cases h
    rfl
  | failed _ => cases h

theorem load_error {k : Keeper} {s : Store} {fault : KeeperFault}
    (h : (k.load s).result = .error fault) :
    (k.load s).keeper = k ∧ ∀ l, (k.load s).store.file? l = s.file? l := by
  have hload := k.loaded_load s
  generalize k.load s = o at h hload ⊢
  cases hload with
  | found => cases h
  | failed hfiles => exact ⟨rfl, hfiles⟩

/-- The file after a load that gives settings holds their document, in UTF-8, or is as it was, and
its text is their document but for its line ends. -/
theorem file_of_load {k : Keeper} {s : Store} {c : Settings} (h : (k.load s).result = .ok c) :
    (k.load s).store.file? k.path.location = some c.render.toUTF8 ∨
      (k.load s).store = s ∧ ∃ text, k.Holds s text ∧ IsDocument text c := by
  obtain ⟨-, -, hend⟩ := load_inv h
  generalize (k.load s).notices = notices at hend
  generalize (k.load s).store = s' at hend ⊢
  cases hend with
  | kept hholds _ hdocument => exact .inr ⟨rfl, _, hholds, hdocument⟩
  | spurned hholds _ hdocument => exact .inr ⟨rfl, _, hholds, hdocument⟩
  | written _ hholds => exact .inl (file?_of_holds hholds)

/-- **File, cache and result.** Whatever lies in the store, and whatever was remembered before:
after a load that gives settings the file is there and holds their document, or was left alone
since it reads as their document but for its line ends; their count is at least 1; and the keeper
answers with them until the next load, whatever is done and whatever is written meanwhile.  A load
that fails changes no file and leaves the keeper what it remembered.  Making sure that there is a
file never touches one that is there. -/
theorem load_agrees (k : Keeper) (s : Store) :
    (∀ c, (k.load s).result = .ok c →
      ((k.load s).store.file? k.path.location = some c.render.toUTF8 ∨
        (k.load s).store = s ∧ ∃ bytes text, s.file? k.path.location = some bytes ∧
          String.fromUTF8? bytes = some text ∧
          Text.unifyNewlines text.toList = c.render.toList) ∧
      1 ≤ c.count ∧
      ∀ uses k' s', (k.load s).keeper.useAll (k.load s).store uses = (k', s') →
        k'.settings s' = ⟨k', s', [], .ok c⟩) ∧
    (∀ fault, (k.load s).result = .error fault →
      (k.load s).keeper = k ∧ ∀ l, (k.load s).store.file? l = s.file? l) ∧
    ∀ withFile bytes, s.file? k.path.location = some bytes →
      (k.ensure s withFile).store.file? k.path.location = some bytes := by
  refine ⟨fun c h => ⟨?_, (load_inv h).1, fun uses k' s' huses => ?_⟩, fun fault h => load_error h,
    fun withFile bytes h => ?_⟩
  · refine (file_of_load h).imp_right fun hkept => ?_
    obtain ⟨hstore, text, ⟨bytes, hfile, htext⟩, hdocument⟩ := hkept
    exact ⟨hstore, bytes, text, Store.file?_eq_some_iff.2 hfile, htext, hdocument.symm⟩
  · have hcached := load_ok h
    have hkeeper := keeper_useAll hcached (k.load s).store uses
    rw [huses] at hkeeper
    rw [← hkeeper] at hcached
    exact settings_of_cached hcached s'
  · rw [Store.file?_eq_some_iff] at h ⊢
    exact k.find?_ensure s withFile h

/-- A home folder whose settings file is no text. -/
def strayHome : Store :=
  ⟨[(["home"], .folder), (["home", "config.toml"], .file ⟨#[0xff]⟩)]⟩

/-- A new home folder gets the defaults, which stay with the keeper when someone spoils the file.
A file that is no text is left as it is, by a load and by making sure that there is one. -/
theorem load_agrees_newHome_strayHome :
    ((rootKeeper.load {}).result = .ok {} ∧
      (rootKeeper.load {}).keeper.settings strayHome =
        ⟨(rootKeeper.load {}).keeper, strayHome, [], .ok {}⟩) ∧
    ((rootKeeper.load strayHome).result = .error .notText ∧
      (rootKeeper.load strayHome).store.file? rootKeeper.path.location = some ⟨#[0xff]⟩) ∧
    (rootKeeper.ensure strayHome true).store.file? rootKeeper.path.location =
      some ⟨#[0xff]⟩ := by
  have hnew : (rootKeeper.load {}).result = .ok {} := rfl
  have hstray : (rootKeeper.load strayHome).result = .error .notText := rfl
  have hfile : strayHome.file? rootKeeper.path.location = some ⟨#[0xff]⟩ := rfl
  obtain ⟨hfound, -, -⟩ := load_agrees rootKeeper {}
  obtain ⟨-, -, hremembered⟩ := hfound {} hnew
  obtain ⟨-, hfailed, hensure⟩ := load_agrees rootKeeper strayHome
  obtain ⟨-, hfiles⟩ := hfailed .notText hstray
  exact ⟨⟨hnew, hremembered [.change strayHome] _ _ rfl⟩,
    ⟨hstray, (hfiles _).trans hfile⟩, hensure true _ hfile⟩

/-! ## Saving, then loading -/

theorem location_path (k : Keeper) : k.path.location = k.home.location ++ ["config.toml"] := by
  rw [path, settingsPath, Path.child, Path.location, List.foldl_append]
  rfl

/-- The file can be saved if its folder is there, and no folder in its place. -/
theorem exists_write {k : Keeper} {s : Store} (hhome : s.find? k.home.location = some .folder)
    (hfile : s.find? k.path.location ≠ some .folder) (content : ByteArray) :
    ∃ s', s.write k.path content = .ok s' := by
  unfold Store.write
  dsimp only
  split
  · rename_i hfolder
    exact absurd hfolder hfile
  · exact ⟨_, rfl⟩
  · have hnew : s.newFileFault? k.path.location = none := by
      rw [Store.newFileFault?, location_path, List.dropLast_concat, hhome]
    rw [hnew]
    exact ⟨_, rfl⟩

theorem save_of_write {k : Keeper} {s s' : Store} {c : Settings} (hlong : c.countTooLong = false)
    (h : s.write k.path c.render.toUTF8 = .ok s') :
    k.save s c = ⟨k, s', [.written k.path], .ok ()⟩ := by
  unfold save
  rw [document_of_short hlong]
  simp only [h]

/-- Settings that were saved are in the file. -/
theorem holds_save {k : Keeper} {s : Store} {c : Settings} (hlong : c.countTooLong = false)
    (h : (k.save s c).result = .ok ()) : k.Holds (k.save s c).store c.render := by
  cases hwrite : s.write k.path c.render.toUTF8 with
  | error fault =>
    unfold save at h
    rw [document_of_short hlong] at h
    simp only [hwrite] at h
    cases h
  | ok s' =>
    rw [save_of_write hlong hwrite]
    exact holds_write hwrite

/-- **Saving, then loading.** Settings of plain texts, with a count that is not too long, can be
saved wherever the home folder is there and no folder in the file's place.  Once they are saved, a
load gives them back, tells nothing and leaves the file as it was saved. -/
theorem load_saved {c : Settings} (hplain : c.IsPlain) (hcount : 1 ≤ c.count)
    (hdigits : (Text.digits c.count).length ≤ Text.digitLimit) {k again : Keeper}
    (hhome : again.home = k.home) (s : Store) :
    (s.find? k.home.location = some .folder → s.find? k.path.location ≠ some .folder →
      (k.save s c).result = .ok ()) ∧
    ((k.save s c).result = .ok () →
      (k.save s c).store.file? k.path.location = some c.render.toUTF8 ∧
      (again.load (k.save s c).store).result = .ok c ∧
      (again.load (k.save s c).store).notices = [] ∧
      (again.load (k.save s c).store).store = (k.save s c).store) := by
  have hlong : c.countTooLong = false := Settings.countTooLong_of_length_digits hdigits
  constructor
  · intro hfolder hfile
    obtain ⟨s', hwrite⟩ := exists_write hfolder hfile c.render.toUTF8
    rw [save_of_write hlong hwrite]
  · intro hsaved
    have hholds := holds_save hlong hsaved
    exact ⟨file?_of_holds hholds,
      (load_render_quiet_iff (hholds.congr hhome) hcount hlong).2 hplain⟩

/-- Settings whose texts look like lines of their own document, with a tab and a letter beyond
ASCII. -/
def lookalike : Settings :=
  { title := "# [été] = 'x'\t{{ y }}", count := 120, expression := "[search] # * * *" }

/-- A keeper of the same home that remembers the defaults. -/
def idleKeeper : Keeper := { rootKeeper with cached := some {} }

theorem load_saved_lookalike :
    (rootKeeper.save ⟨[(["home"], .folder)]⟩ lookalike).result = .ok () ∧
      (idleKeeper.load (rootKeeper.save ⟨[(["home"], .folder)]⟩ lookalike).store).result =
        .ok lookalike := by
  have hplain : lookalike.IsPlain := by decide
  have hdigits : (Text.digits lookalike.count).length ≤ Text.digitLimit := by
    simp [lookalike, Text.digits, Text.digitLimit]
  have hhome : idleKeeper.home = rootKeeper.home := rfl
  obtain ⟨hsave, hload⟩ := load_saved hplain (by decide) hdigits hhome ⟨[(["home"], .folder)]⟩
  have hfile : (⟨[(["home"], .folder)]⟩ : Store).find? rootKeeper.path.location ≠ some .folder := by
    intro hfolder
    cases hfolder
  have hsaved := hsave rfl hfile
  exact ⟨hsaved, (hload hsaved).2.1⟩

end Keeper

end CronFire
