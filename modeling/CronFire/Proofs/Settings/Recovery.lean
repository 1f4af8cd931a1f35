import CronFire.Proofs.Settings.Acceptance
import CronFire.Proofs.Settings.Agreement
import CronFire.Proofs.Toml.LongRuns
/-!
# What a load makes of a file

A document gives its own settings or, if it is faulty, all the defaults, never some of each.  A
file that is no document, or a faulty one, is replaced by the defaults with a word to the user.
Some files are neither taken nor replaced: those that are no text, and those with a number that
is too long to convert, be it while the document is read or when the count is written.

Results:
* `load_eq_error_iff`: which files stop a load.
* `load_spurned`, `load_taken`: what becomes of the other ones.
* `load_gives`: the settings of a document.
* `load_recovers`: every file.
-/
namespace CronFire

open CronFire.Toml (Table)

namespace Settings

/-- The settings that a table gives. -/
inductive Gives (t : Table) : Settings → Prop
  /-- A faulty table gives the defaults, whatever else it says. -/
  | defaults : Faulty t → Gives t {}
  | reflected {c : Settings} : ¬ Faulty t → Reflects t c → Gives t c

theorem existsUnique_gives (t : Table) : ∃! c, Gives t c := by
  by_cases hfaulty : Faulty t
  · refine ⟨{}, .defaults hfaulty, fun c hc => ?_⟩
    cases hc with
    | defaults _ => rfl
    | reflected hsound _ => exact absurd hfaulty hsound
  · obtain ⟨c, hc⟩ := Option.ne_none_iff_exists'.1 (mt ofTable?_eq_none_iff.1 hfaulty)
    obtain ⟨-, hreflects⟩ := ofTable?_eq_some_iff.1 hc
    refine ⟨c, .reflected hfaulty hreflects, fun c' hc' => ?_⟩
    cases hc' with
    | defaults h => exact absurd h hfaulty
    | reflected _ hreflects' => exact hreflects'.eq hreflects

theorem gives_of_ofTable? {t : Table} {c : Settings} (h : ofTable? t = some c) : Gives t c := by
  obtain ⟨hsound, hreflects⟩ := ofTable?_eq_some_iff.1 h
  exact .reflected hsound hreflects

theorem SaysSame.gives {t t' : Table} (h : SaysSame t t') {c : Settings} (hc : Gives t c) :
    Gives t' c := by
  have hfaulty : Faulty t ↔ Faulty t' := by
    rw [← ofTable?_eq_none_iff, ← ofTable?_eq_none_iff, h.ofTable?_eq]
  cases hc with
  | defaults hdefaults => exact .defaults (hfaulty.1 hdefaults)
  | reflected hsound hreflects => exact .reflected (mt hfaulty.2 hsound) (h.reflects hreflects)

end Settings

theorem Store.exists_write_of_file {s : Store} {p : Path} {old : ByteArray}
    (h : s.find? p.location = some (.file old)) (content : ByteArray) :
    ∃ s', s.write p content = .ok s' :=
  ⟨_, by rw [write, h]⟩

namespace Keeper

open CronFire.Settings (Faulty Reflects Gives SaysSame)

/-! ## What a text says -/

/-- Why a text is spurned. -/
inductive Spurned (text : String) : Rejection → Prop
  | unreadable : Toml.read text = .error .malformed → Spurned text .unreadable
  | unacceptable {t : Table} : Toml.read text = .ok t → Faulty t → Spurned text .unacceptable

section
variable {text : String} {c : Settings} {why : Rejection} {fault : KeeperFault}

theorem interpret_eq_spurned_iff : interpret text = .ok (.error why) ↔ Spurned text why := by
  unfold interpret
  constructor
  · intro h
    split at h
    · cases h
    · rename_i hread
      cases h
      exact .unreadable hread
    · rename_i t hread
      split at h
      · rename_i hnone
        cases h
        exact .unacceptable hread (Settings.ofTable?_eq_none_iff.1 hnone)
      · cases h
  · intro h
    cases h with
    | unreadable hread => rw [hread]
    | unacceptable hread hfaulty =>
      rw [hread]
      simp only [Settings.ofTable?_eq_none_iff.2 hfaulty]

theorem interpret_eq_taken_iff : interpret text = .ok (.ok c) ↔
    ∃ t, Toml.read text = .ok t ∧ ¬ Faulty t ∧ Reflects t c := by
  rw [Settings.interpret_eq_ok_iff]
  simp only [Settings.ofTable?_eq_some_iff]

theorem interpret_eq_error_iff : interpret text = .error fault ↔
    fault = .numeralTooLong ∧ Toml.read text = .error .numeralTooLong := by
  unfold interpret
  constructor
  · intro h
    split at h
    · rename_i hread
      cases h
      exact ⟨rfl, hread⟩
    · cases h
    · split at h <;> cases h
  · rintro ⟨rfl, hread⟩
    rw [hread]

end

/-! ## What stops a load -/

/-- What stops a load of a file that holds some bytes.  A reader whose stack ends inside some
hundreds of nested arrays is left out here: texts are read to any depth. -/
inductive Stops (bytes : ByteArray) : KeeperFault → Prop
  /-- They are no text. -/
  | notText : String.fromUTF8? bytes = none → Stops bytes .notText
  /-- Reading the text comes to a number that is too long to convert. -/
  | numeral {text : String} : String.fromUTF8? bytes = some text →
      Toml.read text = .error .numeralTooLong → Stops bytes .numeralTooLong
  /-- The count is accepted, but too long to be written. -/
  | count {text : String} {t : Table} {c : Settings} : String.fromUTF8? bytes = some text →
      Toml.read text = .ok t → ¬ Faulty t → Reflects t c → c.countTooLong = true →
      Stops bytes .numeralTooLong

section
variable {k : Keeper} {s : Store} {bytes : ByteArray} {text : String} {why : Rejection}
  {c : Settings} {notices : List Notice} {fault : KeeperFault}

/-- How a file is brought up to date. -/
theorem refresh_of_short (text : String) (notices : List Notice)
    (hfile : s.find? k.path.location = some (.file bytes))
    (hshort : c.countTooLong = false) :
    (k.refresh s text notices c).result = .ok c ∧
      (IsDocument text c ∧ (k.refresh s text notices c).notices = notices ∧
          (k.refresh s text notices c).store = s ∨
        ¬ IsDocument text c ∧
          (k.refresh s text notices c).notices = notices ++ [.updated k.path] ∧
          (k.refresh s text notices c).store.file? k.path.location = some c.render.toUTF8) := by
  by_cases hdocument : IsDocument text c
  · rw [refresh_of_isDocument hshort hdocument]
    exact ⟨rfl, .inl ⟨hdocument, rfl, rfl⟩⟩
  · obtain ⟨s', hwrite⟩ := s.exists_write_of_file hfile c.render.toUTF8
    rw [refresh_of_not_isDocument hshort hdocument, hwrite]
    exact ⟨rfl, .inr ⟨hdocument, rfl, file?_of_holds (holds_write hwrite)⟩⟩

theorem refresh_of_long (hlong : c.countTooLong = true) :
    k.refresh s text notices c = ⟨k, s, notices, .error .numeralTooLong⟩ := by
  unfold refresh
  rw [document_of_long hlong]

theorem countTooLong_defaults : ({} : Settings).countTooLong = false :=
  Settings.countTooLong_of_lt (by decide)

/-- A spurned text is replaced by the defaults. -/
theorem load_spurned (hholds : k.Holds s text) (h : Spurned text why) :
    (k.load s).result = .ok {} ∧
      (IsDocument text {} ∧ (k.load s).notices = [.rejected k.path why] ∧ (k.load s).store = s ∨
        ¬ IsDocument text {} ∧
          (k.load s).notices = [.rejected k.path why, .updated k.path] ∧
          (k.load s).store.file? k.path.location = some ({} : Settings).render.toUTF8) := by
  obtain ⟨bytes, hfile, -⟩ := id hholds
  have hload : k.load s = k.refresh s text [.rejected k.path why] {} := by
    rw [load_of_holds hholds, interpret_eq_spurned_iff.2 h]
  rw [hload]
  exact refresh_of_short _ _ hfile countTooLong_defaults

/-- A text that is not spurned is taken as it is, or stops the load. -/
theorem load_taken (hholds : k.Holds s text) (h : interpret text = .ok (.ok c)) :
    k.load s = k.refresh s text [] c := by
  rw [load_of_holds hholds, h]

theorem load_of_notText (hfile : s.find? k.path.location = some (.file bytes))
    (h : String.fromUTF8? bytes = none) : (k.load s).result = .error .notText := by
  have hread : s.read k.path = .ok bytes := by rw [Store.read, hfile]
  have hthere : s.exists? k.path.location = true := by
    rw [Store.exists?, hfile]
    rfl
  rw [load, hthere, hread]
  simp only [Bool.not_true, Bool.false_eq_true, if_false, h]
  rfl

theorem load_of_stops (hfile : s.find? k.path.location = some (.file bytes))
    (h : Stops bytes fault) : (k.load s).result = .error fault := by
  cases h with
  | notText htext => exact load_of_notText hfile htext
  | numeral htext hread =>
    rw [load_of_holds ⟨bytes, hfile, htext⟩, interpret_eq_error_iff.2 ⟨rfl, hread⟩]
    rfl
  | count htext hread hsound hreflects hlong =>
    rw [load_taken ⟨bytes, hfile, htext⟩
      (interpret_eq_taken_iff.2 ⟨_, hread, hsound, hreflects⟩), refresh_of_long hlong]

theorem stops_of_load (hfile : s.find? k.path.location = some (.file bytes))
    (h : (k.load s).result = .error fault) : Stops bytes fault := by
  cases htext : String.fromUTF8? bytes with
  | none =>
    cases (load_of_notText hfile htext).symm.trans h
    exact .notText htext
  | some text =>
    have hholds : k.Holds s text := ⟨bytes, hfile, htext⟩
    rcases hinterpret : interpret text with fault' | why | c
    · obtain ⟨rfl, hread⟩ := interpret_eq_error_iff.1 hinterpret
      rw [load_of_holds hholds, hinterpret] at h
      cases h
      exact .numeral htext hread
    · have hdefaults := (load_spurned hholds (interpret_eq_spurned_iff.1 hinterpret)).1
      cases hdefaults.symm.trans h
    · obtain ⟨t, hread, hsound, hreflects⟩ := interpret_eq_taken_iff.1 hinterpret
      rw [load_taken hholds hinterpret] at h
      cases hlong : c.countTooLong with
      | true =>
        rw [refresh_of_long hlong] at h
        cases h
        exact .count htext hread hsound hreflects hlong
      | false => cases (refresh_of_short _ _ hfile hlong).1.symm.trans h

/-- The files that stop a load. -/
theorem load_eq_error_iff (hfile : s.find? k.path.location = some (.file bytes)) :
    (k.load s).result = .error fault ↔ Stops bytes fault :=
  ⟨stops_of_load hfile, load_of_stops hfile⟩

/-! ## Files that are loaded -/

/-- A document gives its settings, unless their count is too long to be written. -/
theorem result_load {t : Table} (hholds : k.Holds s text) (hread : Toml.read text = .ok t)
    (h : Gives t c) :
    (k.load s).result = if c.countTooLong then .error .numeralTooLong else .ok c := by
  obtain ⟨bytes, hfile, -⟩ := id hholds
  cases h with
  | defaults hfaulty =>
    rw [(load_spurned hholds (.unacceptable hread hfaulty)).1, countTooLong_defaults]
    rfl
  | reflected hsound hreflects =>
    rw [load_taken hholds (interpret_eq_taken_iff.2 ⟨t, hread, hsound, hreflects⟩)]
    cases hlong : c.countTooLong with
    | true => exact congrArg Outcome.result (refresh_of_long hlong)
    | false => exact (refresh_of_short _ _ hfile hlong).1

/-- The user is warned of faulty documents and of texts that are none. -/
theorem rejected_mem_load_iff (hholds : k.Holds s text) :
    .rejected k.path why ∈ (k.load s).notices ↔ Spurned text why := by
  obtain ⟨bytes, hfile, htext⟩ := id hholds
  constructor
  · intro hmem
    rcases hinterpret : interpret text with fault | why' | c
    · rw [load_of_holds hholds, hinterpret] at hmem
      cases hmem
    · have hspurned := interpret_eq_spurned_iff.1 hinterpret
      rcases (load_spurned hholds hspurned).2 with ⟨-, hnotices, -⟩ | ⟨-, hnotices, -⟩ <;>
      · rw [hnotices] at hmem
        have heq : why = why' := by simpa using hmem
        rwa [heq]
    · rw [load_taken hholds hinterpret] at hmem
      cases hlong : c.countTooLong with
      | true =>
        rw [refresh_of_long hlong] at hmem
        cases hmem
      | false =>
        rcases (refresh_of_short text [] hfile hlong).2 with
          ⟨-, hnotices, -⟩ | ⟨-, hnotices, -⟩ <;>
        · rw [hnotices] at hmem
          simp at hmem
  · intro hspurned
    rcases (load_spurned hholds hspurned).2 with ⟨-, hnotices, -⟩ | ⟨-, hnotices, -⟩ <;>
      simp [hnotices]

/-- The defaults are written over a spurned text, unless only its line ends are wrong. -/
theorem file?_load_spurned_iff (hholds : k.Holds s text) (h : Spurned text why) :
    (k.load s).store.file? k.path.location = some ({} : Settings).render.toUTF8 ↔
      ¬ IsDocument text {} := by
  rcases (load_spurned hholds h).2 with ⟨hdocument, -, hstore⟩ | ⟨hdocument, -, hfile⟩
  · refine iff_of_false (fun hfile => ?_) (not_not_intro hdocument)
    rw [hstore, file?_of_holds hholds, Option.some.injEq, String.toUTF8_eq_toByteArray,
      String.toUTF8_eq_toByteArray, String.toByteArray_inj] at hfile
    have hrender : interpret ({} : Settings).render = .ok (.ok {}) :=
      (Settings.interpret_render_iff (by decide) countTooLong_defaults).2 (by decide)
    rw [← hfile, interpret_eq_spurned_iff.2 h] at hrender
    cases hrender
  · exact iff_of_true hfile hdocument

end

/-! ## Documents -/

section
variable {k : Keeper} {s : Store} {text : String} (hholds : k.Holds s text)
  (hvalid : Toml.read text ≠ .error .malformed)
include hholds

/-- The settings that come of a load. -/
theorem result_load_eq_ok_iff {t : Table} (hread : Toml.read text = .ok t) {c : Settings} :
    (k.load s).result = .ok c ↔ Gives t c ∧ c.countTooLong = false := by
  obtain ⟨only, honly, hunique⟩ := Settings.existsUnique_gives t
  rw [result_load hholds hread honly]
  constructor
  · intro h
    cases hlong : only.countTooLong with
    | true =>
      rw [hlong] at h
      cases h
    | false =>
      rw [hlong] at h
      cases h
      exact ⟨honly, hlong⟩
  · rintro ⟨hc, hshort⟩
    rw [← hunique c hc, hshort]
    rfl

include hvalid

/-- A load of a text that is not malformed gives settings only if the text is read. -/
theorem result_load_of_valid {c : Settings} : (k.load s).result = .ok c ↔
    (∃ t, Toml.read text = .ok t ∧ Gives t c) ∧ c.countTooLong = false := by
  cases hread : Toml.read text with
  | error fault =>
    cases fault with
    | malformed => exact absurd hread hvalid
    | numeralTooLong =>
      rw [load_of_holds hholds, interpret_eq_error_iff.2 ⟨rfl, hread⟩]
      simp [stop]
  | ok t =>
    rw [result_load_eq_ok_iff hholds hread]
    simp

/-- The user is warned of a text that is not malformed exactly if it is faulty. -/
theorem exists_rejected_iff {t : Table} (hread : Toml.read text = .ok t) :
    (∃ why, .rejected k.path why ∈ (k.load s).notices) ↔ Faulty t := by
  simp only [rejected_mem_load_iff hholds]
  constructor
  · rintro ⟨why, hspurned⟩
    cases hspurned with
    | unreadable hmalformed => exact absurd hmalformed hvalid
    | unacceptable hread' hfaulty =>
      cases hread.symm.trans hread'
      exact hfaulty
  · exact fun hfaulty => ⟨_, .unacceptable hread hfaulty⟩

end

def answerText (ds : List Char) : String := "answer = " ++ String.ofList ds ++ "\n"

theorem read_answerText (ds : List Char) (hdigits : ds.all Char.isDigit = true)
    (hhead : ∃ c cs, ds = c :: cs ∧ c ≠ '0') :
    Toml.read (answerText ds) = if Text.digitLimit < ds.length then .error .numeralTooLong
      else .ok [("answer", .integer (Text.value ds))] := by
  have htext : (answerText ds).toList = "answer = ".toList ++ (ds ++ ['\n']) := by
    simp [answerText]
  have hreturn : '\r' ∉ ds := fun hmem => by cases List.all_eq_true.1 hdigits _ hmem
  have hjoin : Toml.joinLineEnds (answerText ds).toList = "answer = ".toList ++ (ds ++ ['\n']) := by
    have hnone : '\r' ∉ "answer = ".toList ++ (ds ++ ['\n']) := by simp [hreturn]
    have happend := Toml.joinLineEnds_append hnone []
    rwa [htext, ← List.append_nil (_ ++ _)]
  have hvalue := Toml.readValue_run hdigits hhead []
  obtain ⟨fuel, hfuel⟩ : ∃ fuel, ("answer = ".toList ++ (ds ++ ['\n'])).length + 1 = fuel + 2 :=
    ⟨ds.length + 9, by simp⟩
  show (Toml.readLines _ {} (Toml.joinLineEnds (answerText ds).toList)).map _ = _
  rw [hjoin, hfuel]
  by_cases hlong : Text.digitLimit < ds.length
  · rw [if_pos hlong] at hvalue ⊢
    rw [Toml.readLines_assign_error "answer" (by decide) (by decide) hvalue]
    rfl
  · rw [if_neg hlong] at hvalue ⊢
    rw [Toml.readLines_assign "answer" (by decide) (by decide) hvalue]
    rfl

theorem holds_homeWith (text : String) : rootKeeper.Holds (homeWith text) text :=
  ⟨text.toUTF8, rfl, fromUTF8?_toUTF8 text⟩

def brokenText : String := "this is = not = toml\n"

end Keeper

end CronFire
