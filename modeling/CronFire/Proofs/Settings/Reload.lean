import CronFire.Proofs.Settings.Document
/-!
# Loading settings twice

A load leaves a file that a second load should find in order: the same settings, no notice and
nothing to write.  That holds as long as the first load leaves the file alone.  When it writes
the file, the texts go into the document as they are, and the second load finds other settings,
or none, unless they are plain.

**Results.**
* `load_inv`: the ways in which a load comes to settings.
* `load_quiet_iff`: what a file says if loading it gives some settings without a notice.
* `load_again_iff`: when a second load gives the settings of the first, quietly.
* `not_load_again_quotedTitle`: a title with quotes is lost.
-/
namespace CronFire

/-! ## Files and their texts -/

theorem Store.find?_write {s s' : Store} {p : Path} {content : ByteArray}
    (h : s.write p content = .ok s') : s'.find? p.location = some (.file content) := by
  have hroot : p.location ≠ [] := by
    intro hnil
    simp [write, find?, hnil] at h
  have hput : s' = s.put p.location (.file content) := by
    unfold write at h
    dsimp only at h
    split at h
    · cases h
    · exact (Except.ok.inj h).symm
    · split at h
      · cases h
      · exact (Except.ok.inj h).symm
  rw [hput, find?_put s hroot, if_pos rfl]

theorem fromUTF8?_toUTF8 (text : String) : String.fromUTF8? text.toUTF8 = some text := by
  unfold String.fromUTF8?
  rw [String.toUTF8_eq_toByteArray, dif_pos text.isValidUTF8]
  rfl

theorem Text.unifyNewlines_of_not_mem {cs : List Char} (h : '\r' ∉ cs) : unifyNewlines cs = cs := by
  fun_induction unifyNewlines cs with
  | case1 => rfl
  | case2 cs ih => exact absurd List.mem_cons_self h
  | case3 c cs _ ih =>
    rw [List.mem_cons, not_or] at h
    rw [if_neg (Ne.symm h.1), ih h.2]

namespace Keeper

def Holds (k : Keeper) (s : Store) (text : String) : Prop :=
  ∃ bytes, s.find? k.path.location = some (.file bytes) ∧ String.fromUTF8? bytes = some text

theorem Holds.congr {k again : Keeper} (hhome : again.home = k.home) {s : Store} {text : String}
    (h : k.Holds s text) : again.Holds s text := by
  unfold Holds path at h ⊢
  rwa [hhome]

theorem Holds.unique {k : Keeper} {s : Store} {text text' : String} (h : k.Holds s text)
    (h' : k.Holds s text') : text = text' := by
  obtain ⟨bytes, hfile, htext⟩ := h
  obtain ⟨bytes', hfile', htext'⟩ := h'
  rw [hfile] at hfile'
  cases hfile'
  exact Option.some.inj (htext.symm.trans htext')

theorem holds_write {k : Keeper} {s s' : Store} {text : String}
    (h : s.write k.path text.toUTF8 = .ok s') : k.Holds s' text :=
  ⟨text.toUTF8, Store.find?_write h, fromUTF8?_toUTF8 text⟩

/-- A file that holds a text is loaded as what the text stands for. -/
theorem load_of_holds {k : Keeper} {s : Store} {text : String} (h : k.Holds s text) :
    k.load s =
      match interpret text with
      | .error fault => k.stop s fault
      | .ok (.error why) => k.refresh s text [.rejected k.path why] {}
      | .ok (.ok settings) => k.refresh s text [] settings := by
  obtain ⟨bytes, hfile, htext⟩ := h
  have hread : s.read k.path = .ok bytes := by
    rw [Store.read, hfile]
  have hthere : s.exists? k.path.location = true := by
    rw [Store.exists?, hfile]
    rfl
  unfold load
  rw [hthere, hread]
  cases hr : interpret text with
  | error fault => simp only [Bool.not_true, Bool.false_eq_true, if_false, htext, hr]
  | ok r => cases r <;> simp only [Bool.not_true, Bool.false_eq_true, if_false, htext, hr]

/-! ## How a load ends -/

/-- The text is the document of the settings, whatever its line ends. -/
def IsDocument (text : String) (settings : Settings) : Prop :=
  settings.render.toList = Text.unifyNewlines text.toList

theorem document_of_short {settings : Settings} (h : settings.countTooLong = false) :
    document settings = .ok settings.render.toUTF8 := by
  rw [document, h]
  rfl

theorem document_of_long {settings : Settings} (h : settings.countTooLong = true) :
    document settings = .error .numeralTooLong := by
  rw [document, h]
  rfl

theorem refresh_of_isDocument {k : Keeper} {s : Store} {text : String} {notices : List Notice}
    {settings : Settings} (hlong : settings.countTooLong = false)
    (h : IsDocument text settings) :
    k.refresh s text notices settings = ⟨{ k with cached := some settings }, s, notices,
      .ok settings⟩ := by
  unfold IsDocument at h
  unfold refresh
  rw [document_of_short hlong]
  exact if_pos h

theorem refresh_of_not_isDocument {k : Keeper} {s : Store} {text : String}
    {notices : List Notice} {settings : Settings} (hlong : settings.countTooLong = false)
    (h : ¬ IsDocument text settings) :
    k.refresh s text notices settings =
      match s.write k.path settings.render.toUTF8 with
      | .error fault => ⟨k, s, notices, .error (.store fault)⟩
      | .ok s => ⟨{ k with cached := some settings }, s, notices ++ [.updated k.path],
          .ok settings⟩ := by
  unfold IsDocument at h
  unfold refresh
  rw [document_of_short hlong]
  exact if_neg h

/-- Bringing a file up to date, if it goes well, leaves it alone or writes the document. -/
theorem refresh_inv {k : Keeper} {s : Store} {text : String} {notices : List Notice}
    {given settings : Settings} (h : (k.refresh s text notices given).result = .ok settings) :
    settings = given ∧ given.countTooLong = false ∧
      (IsDocument text given ∧
          (k.refresh s text notices given).notices = notices ∧
          (k.refresh s text notices given).store = s ∨
        (k.refresh s text notices given).notices = notices ++ [.updated k.path] ∧
          k.Holds (k.refresh s text notices given).store given.render) := by
  cases hlong : given.countTooLong with
  | true =>
    unfold refresh at h
    rw [document_of_long hlong] at h
    cases h
  | false =>
    by_cases hdocument : IsDocument text given
    · rw [refresh_of_isDocument hlong hdocument] at h ⊢
      exact ⟨(Except.ok.inj h).symm, rfl, .inl ⟨hdocument, rfl, rfl⟩⟩
    · rw [refresh_of_not_isDocument hlong hdocument] at h ⊢
      cases hwrite : s.write k.path given.render.toUTF8 with
      | error fault =>
        rw [hwrite] at h
        cases h
      | ok s' =>
        rw [hwrite] at h
        exact ⟨(Except.ok.inj h).symm, rfl, .inr ⟨rfl, holds_write hwrite⟩⟩

theorem load_of_missing {k : Keeper} {s : Store} (h : s.find? k.path.location = none) :
    k.load s = k.create s := by
  have hmissing : s.exists? k.path.location = false := by
    rw [Store.exists?, h]
    rfl
  rw [load, hmissing]
  rfl

/-- A new file, if it can be made, holds the document of the defaults. -/
theorem create_inv {k : Keeper} {s : Store} {settings : Settings}
    (h : (k.create s).result = .ok settings) :
    settings = {} ∧ (k.create s).notices = [.created k.path] ∧
      k.Holds (k.create s).store settings.render := by
  unfold create at h ⊢
  cases hfolders : s.makeFolders k.home with
  | error fault =>
    rw [hfolders] at h
    cases h
  | ok made =>
    rw [hfolders] at h
    dsimp only at h ⊢
    cases hwrite : made.write k.path ({} : Settings).render.toUTF8 with
    | error fault =>
      rw [hwrite] at h
      cases h
    | ok s' =>
      rw [hwrite] at h
      obtain rfl : settings = {} := (Except.ok.inj h).symm
      exact ⟨rfl, rfl, holds_write hwrite⟩

/-- The ways in which a load comes to settings, with what it tells and the store it leaves. -/
inductive LoadEnd (k : Keeper) (s : Store) (settings : Settings) : List Notice → Store → Prop
  /-- The file was in order. -/
  | kept {text : String} : k.Holds s text → interpret text = .ok (.ok settings) →
      IsDocument text settings → LoadEnd k s settings [] s
  /-- The file was rejected, but reads as the document of the defaults but for its line ends. -/
  | spurned {text : String} {why : Rejection} : k.Holds s text →
      interpret text = .ok (.error why) → IsDocument text settings →
      LoadEnd k s settings [.rejected k.path why] s
  /-- The document was written. -/
  | written {notices : List Notice} {last : Notice} {s' : Store} :
      (last = .created k.path ∨ last = .updated k.path) → k.Holds s' settings.render →
      LoadEnd k s settings (notices ++ [last]) s'

theorem LoadEnd.of_refresh {k : Keeper} {s : Store} {text : String} {settings : Settings}
    {notices : List Notice} {given : Settings}
    (hkept : IsDocument text given → LoadEnd k s given notices s)
    (h : (k.refresh s text notices given).result = .ok settings) :
    settings = given ∧ given.countTooLong = false ∧
      LoadEnd k s given (k.refresh s text notices given).notices
        (k.refresh s text notices given).store := by
  obtain ⟨hgiven, hlong, hend⟩ := refresh_inv h
  refine ⟨hgiven, hlong, ?_⟩
  rcases hend with ⟨hdocument, hnotices, hstore⟩ | ⟨hnotices, hstore⟩
  · rw [hnotices, hstore]
    exact hkept hdocument
  · rw [hnotices]
    exact .written (.inr rfl) hstore

theorem load_inv_of_holds {k : Keeper} {s : Store} {text : String} {settings : Settings}
    (hholds : k.Holds s text) (h : (k.load s).result = .ok settings) :
    1 ≤ settings.count ∧ settings.countTooLong = false ∧
      LoadEnd k s settings (k.load s).notices (k.load s).store := by
  have hload := load_of_holds hholds
  rcases hinterpret : interpret text with fault | why | given
  · rw [hload, hinterpret] at h
    cases h
  · rw [hinterpret] at hload
    replace hload : k.load s = k.refresh s text [.rejected k.path why] {} := hload
    rw [hload] at h ⊢
    obtain ⟨rfl, hlong, hend⟩ := LoadEnd.of_refresh (.spurned hholds hinterpret) h
    exact ⟨by decide, hlong, hend⟩
  · rw [hinterpret] at hload
    replace hload : k.load s = k.refresh s text [] given := hload
    rw [hload] at h ⊢
    obtain ⟨rfl, hlong, hend⟩ := LoadEnd.of_refresh (.kept hholds hinterpret) h
    obtain ⟨t, -, htable⟩ := Settings.interpret_eq_ok_iff.mp hinterpret
    exact ⟨Settings.one_le_count_of_ofTable? htable, hlong, hend⟩

/-- How a load that gives settings went. -/
theorem load_inv {k : Keeper} {s : Store} {settings : Settings}
    (h : (k.load s).result = .ok settings) :
    1 ≤ settings.count ∧ settings.countTooLong = false ∧
      LoadEnd k s settings (k.load s).notices (k.load s).store := by
  cases hfile : s.find? k.path.location with
  | none =>
    rw [load_of_missing hfile] at h ⊢
    obtain ⟨rfl, hnotices, hstore⟩ := create_inv h
    rw [hnotices, ← List.nil_append [_]]
    exact ⟨by decide, Settings.countTooLong_of_lt (by decide), .written (.inl rfl) hstore⟩
  | some entry =>
    have hthere : s.exists? k.path.location = true := by
      rw [Store.exists?, hfile]
      rfl
    cases entry with
    | folder =>
      have hread : s.read k.path = .error .isAFolder := by rw [Store.read, hfile]
      rw [load, hthere, hread] at h
      cases h
    | file bytes =>
      cases htext : String.fromUTF8? bytes with
      | none =>
        have hread : s.read k.path = .ok bytes := by rw [Store.read, hfile]
        rw [load, hthere, hread] at h
        simp only [Bool.not_true, Bool.false_eq_true, if_false, htext] at h
        cases h
      | some text => exact load_inv_of_holds ⟨bytes, hfile, htext⟩ h

/-- Loading a file that holds a text gives settings quietly when the text is their document. -/
theorem load_quiet_iff {k : Keeper} {s : Store} {text : String} (h : k.Holds s text)
    {settings : Settings} (hlong : settings.countTooLong = false) :
    ((k.load s).result = .ok settings ∧ (k.load s).notices = [] ∧ (k.load s).store = s) ↔
      interpret text = .ok (.ok settings) ∧ IsDocument text settings := by
  constructor
  · rintro ⟨hresult, hnotices, -⟩
    obtain ⟨-, -, hend⟩ := load_inv hresult
    generalize (k.load s).store = s' at hend
    rw [hnotices] at hend
    generalize hnil : ([] : List Notice) = notices at hend
    cases hend with
    | kept hholds hinterpret hdocument =>
      rw [h.unique hholds]
      exact ⟨hinterpret, hdocument⟩
    | spurned => cases hnil
    | written => simp at hnil
  · rintro ⟨hinterpret, hdocument⟩
    have hload : k.load s = k.refresh s text [] settings := by
      rw [load_of_holds h, hinterpret]
    rw [hload, refresh_of_isDocument hlong hdocument]
    exact ⟨rfl, rfl, rfl⟩

/-- A document without carriage returns is a document as it stands. -/
theorem isDocument_render {settings : Settings} (h : settings.IsPlain) :
    IsDocument settings.render settings :=
  (Text.unifyNewlines_of_not_mem (Settings.not_mem_render h)).symm

theorem load_render_quiet_iff {k : Keeper} {s : Store} {settings : Settings}
    (h : k.Holds s settings.render) (hcount : 1 ≤ settings.count)
    (hlong : settings.countTooLong = false) :
    ((k.load s).result = .ok settings ∧ (k.load s).notices = [] ∧ (k.load s).store = s) ↔
      settings.IsPlain := by
  rw [load_quiet_iff h hlong, Settings.interpret_render_iff hcount hlong]
  exact and_iff_left_of_imp isDocument_render

/-- A second load, by the same keeper or by another one of the same home, gives the settings of
the first without a word and leaves the store as it is, exactly if the first load said nothing,
or wrote a document of plain texts.  A load that rejects a file that it then finds to be the
document of the defaults will reject it every time. -/
theorem load_again_iff {k again : Keeper} (hhome : again.home = k.home) {s : Store}
    {settings : Settings} (h : (k.load s).result = .ok settings) :
    ((again.load (k.load s).store).result = .ok settings ∧
        (again.load (k.load s).store).notices = [] ∧
        (again.load (k.load s).store).store = (k.load s).store) ↔
      (k.load s).notices = [] ∨
        settings.IsPlain ∧ ∀ why, (k.load s).notices ≠ [.rejected k.path why] := by
  obtain ⟨hcount, hlong, hend⟩ := load_inv h
  generalize (k.load s).notices = notices at hend ⊢
  generalize (k.load s).store = s' at hend ⊢
  cases hend with
  | kept hholds hinterpret hdocument =>
    rw [load_quiet_iff (hholds.congr hhome) hlong]
    simp [hinterpret, hdocument]
  | spurned hholds hinterpret hdocument =>
    rw [load_quiet_iff (hholds.congr hhome) hlong]
    simp [hinterpret]
  | @written before last s' hlast hholds =>
    have hnotices : before ++ [last] ≠ [] ∧ ∀ why, before ++ [last] ≠ [.rejected k.path why] := by
      refine ⟨by simp, fun why heq => ?_⟩
      have hrejected : last = .rejected k.path why := by
        simpa using congrArg List.getLast? heq
      rcases hlast with rfl | rfl <;> cases hrejected
    rw [load_render_quiet_iff (hholds.congr hhome) hcount hlong]
    simp [hnotices]

/-- A keeper of a home folder right below the root. -/
def rootKeeper : Keeper := { home := ⟨.slash, ["home"]⟩ }

/-- After the defaults were written to a new home folder they are found in order. -/
theorem load_again_iff_newHome :
    (rootKeeper.load {}).result = .ok {} ∧
      (rootKeeper.load (rootKeeper.load {}).store).result = .ok {} ∧
      (rootKeeper.load (rootKeeper.load {}).store).notices = [] := by
  have hfirst : (rootKeeper.load {}).result = .ok {} := rfl
  have hplain : ({} : Settings).IsPlain := by decide
  have hnotices : ∀ why, (rootKeeper.load {}).notices ≠ [.rejected rootKeeper.path why] := by
    intro why heq
    cases heq
  obtain ⟨hresult, hquiet, -⟩ := (load_again_iff rfl hfirst).mpr (.inr ⟨hplain, hnotices⟩)
  exact ⟨hfirst, hresult, hquiet⟩

/-! ## A title with quotes -/

def homeWith (text : String) : Store :=
  ⟨[(["home"], .folder), (["home", "config.toml"], .file text.toUTF8)]⟩

/-- A title with double quotes, between single ones, and a count. -/
def quotedText : String := "title = 'My \"cron\" settings'\n[search]\ncount = 3\n"

def quotedSettings : Settings := { title := "My \"cron\" settings", count := 3 }

theorem read_quotedText : Toml.read quotedText =
    .ok [("search", .table [("count", .integer 3)]), ("title", .string quotedSettings.title)] := by
  have hjoin : Toml.joinLineEnds quotedText.toList = "title = ".toList ++
      ("'My \"cron\" settings'\n".toList ++ ("[search]\n".toList ++ ("count = ".toList ++
        ['3', '\n']))) := rfl
  have htitle (rest : List Char) : Toml.readValue (Toml.skipSpaces
      ("'My \"cron\" settings'\n".toList ++ rest)) =
        .ok (.string quotedSettings.title, '\n' :: rest) := rfl
  have hcount : Toml.readValue (Toml.skipSpaces ['3', '\n']) = .ok (.integer 3, ['\n']) := rfl
  have hassign : Toml.Draft.assign {} ["title"] (.string quotedSettings.title) =
      .ok { entries := [("title", .string quotedSettings.title)] } := rfl
  have hopen : Toml.Draft.openTable { entries := [("title", .string quotedSettings.title)] }
      ["search"] =
      .ok { entries := [("search", .table []), ("title", .string quotedSettings.title)],
            header := ["search"], opened := [["search"]] } := rfl
  have hassign' : Toml.Draft.assign
      { entries := [("search", .table []), ("title", .string quotedSettings.title)],
        header := ["search"], opened := [["search"]] } ["count"] (.integer 3) =
      .ok { entries := [("search", .table [("count", .integer 3)]),
              ("title", .string quotedSettings.title)],
            header := ["search"], opened := [["search"]] } := rfl
  rw [Toml.read]
  show (Toml.readLines _ {} (Toml.joinLineEnds quotedText.toList)).map _ = _
  obtain ⟨fuel, hfuel⟩ : ∃ fuel, (Toml.joinLineEnds quotedText.toList).length + 1 = fuel + 4 :=
    ⟨45, by rw [hjoin]; decide⟩
  rw [hfuel, hjoin, Toml.readLines_assign "title" (by decide) (by decide) (htitle _), hassign,
    ok_bind, Toml.readLines_header "search" (by decide) (by decide), hopen, ok_bind,
    Toml.readLines_assign "count" (by decide) (by decide) hcount, hassign', ok_bind]
  rfl

/-- The title is written between double quotes as it is, and the settings are lost. -/
theorem not_load_again_quotedTitle :
    (rootKeeper.load (homeWith quotedText)).result = .ok quotedSettings ∧
      ¬ ((rootKeeper.load (rootKeeper.load (homeWith quotedText)).store).result =
          .ok quotedSettings ∧
        (rootKeeper.load (rootKeeper.load (homeWith quotedText)).store).notices = [] ∧
        (rootKeeper.load (rootKeeper.load (homeWith quotedText)).store).store =
          (rootKeeper.load (homeWith quotedText)).store) := by
  have hholds : rootKeeper.Holds (homeWith quotedText) quotedText :=
    ⟨quotedText.toUTF8, rfl, fromUTF8?_toUTF8 quotedText⟩
  have hinterpret : interpret quotedText = .ok (.ok quotedSettings) :=
    Settings.interpret_eq_ok_iff.mpr ⟨_, read_quotedText, rfl⟩
  have hlong : quotedSettings.countTooLong = false := Settings.countTooLong_of_lt (by decide)
  have hdocument : ¬ IsDocument quotedText quotedSettings := by
    intro h
    rw [IsDocument, Settings.toList_render] at h
    have hquote := congrArg (·[8]?) h
    revert hquote
    decide
  have hload : rootKeeper.load (homeWith quotedText) =
      rootKeeper.refresh (homeWith quotedText) quotedText [] quotedSettings := by
    rw [load_of_holds hholds, hinterpret]
  rw [refresh_of_not_isDocument hlong hdocument] at hload
  have hresult : (rootKeeper.load (homeWith quotedText)).result = .ok quotedSettings := by
    rw [hload]
    rfl
  have hwritten : rootKeeper.Holds (rootKeeper.load (homeWith quotedText)).store
      quotedSettings.render := by
    rw [hload]
    exact ⟨quotedSettings.render.toUTF8, rfl, fromUTF8?_toUTF8 _⟩
  refine ⟨hresult, ?_⟩
  rw [load_render_quiet_iff hwritten (by decide) hlong]
  decide

end Keeper

end CronFire
