import CatalogPress.Project.Basic
import CatalogPress.Proofs.Json.File
import CatalogPress.Proofs.Json.Overdeep

/-!
When loading a project ends in a project or in a fault of its configuration. The file must hold a
text that can be read as data as far as it goes, and its documents, if they are looked at, must be
something that can be gone through, in which no path of a document is anything else than a text. All
other failures are handed on.
-/
namespace CatalogPress.Project
open Fallible

def IsConfigFault (failure : Failure) : Prop :=
  ∃ error, failure = .config error

def IsDocument (item : Json) : Prop :=
  ∃ template output, item.field? "template" = some (.str template) ∧
    item.field? "output" = some (.str output)

/-- The paths of a document are texts, unless one of them is missing. -/
def HasTextPaths (item : Json) : Prop :=
  ∀ template output, item.field? "template" = some template →
    item.field? "output" = some output → IsDocument item

/-- What can be gone through as documents. In a list the first item that is no document lacks a
path. -/
inductive Documents : Json → Prop
  | str (text : Text) : Documents (.str text)
  | record (fields : Fields Json) : Documents (.record fields)
  | list {items : List Json} :
      (∀ before item after, items = before ++ item :: after → (∀ other ∈ before, IsDocument other) →
        HasTextPaths item) → Documents (.list items)

def LicenceGiven (fields : Fields Json) : Prop :=
  ∀ data, Fields.get? "defaultLicence" fields = some data → data = .null ∨
    ∃ licence, data = .record licence

def CategoriesGiven (fields : Fields Json) : Prop :=
  ∀ data, Fields.get? "categoryOrder" fields = some data →
    ∃ keys : List Text, data = .list (keys.map .str)

/-- The documents are sound, if they are looked at: the licence and the categories come before
them. -/
def DocumentsGiven (fields : Fields Json) : Prop :=
  LicenceGiven fields → CategoriesGiven fields →
    ∀ data, Fields.get? "documents" fields = some data → Documents data

/-- Bytes of a text that nowhere goes beyond what can be read, and whose documents are sound. -/
def Legible (bytes : ByteArray) : Prop :=
  ∃ chars, bytes.data.toList = chars.flatMap String.utf8EncodeChar ∧
    ¬ Json.Overlong .file (Json.Token.ofText (String.ofList (Text.unifyNewlines chars))) ∧
    ¬ Json.Overdeep .file (Json.Token.ofText (String.ofList (Text.unifyNewlines chars))) ∧
    ∀ fields, Json.read .file (String.ofList (Text.unifyNewlines chars)) = .ok (.record fields) →
    DocumentsGiven fields

variable {files : FileSystem} {settings : Settings} {path root : Path} {fields : Fields Json}

theorem failsWith_config (error : ConfigError) :
    FailsWith IsConfigFault (.error (.config error) : Except Failure α) :=
  failsWith_error.mpr ⟨error, rfl⟩

theorem not_failsWith {failure : Failure} (h : ¬ IsConfigFault failure) :
    ¬ FailsWith IsConfigFault (.error failure : Except Failure α) :=
  fun hfails => h (hfails failure rfl)

theorem failsWith_readLicence (settings : Settings) (fields : Fields Json) :
    FailsWith IsConfigFault (readLicence settings fields) := by
  unfold readLicence
  split
  · exact failsWith_ok
  · exact failsWith_ok
  · exact failsWith_ok
  · exact failsWith_config _

theorem exists_readLicence_iff (settings : Settings) {fields : Fields Json} :
    (∃ licence, readLicence settings fields = .ok licence) ↔ LicenceGiven fields := by
  unfold readLicence LicenceGiven
  cases Fields.get? "defaultLicence" fields with
  | none => simp
  | some data => cases data <;> simp

theorem failsWith_readCategories (settings : Settings) (fields : Fields Json) :
    FailsWith IsConfigFault (readCategories settings fields) := by
  unfold readCategories
  split
  · exact failsWith_ok
  · split
    · exact failsWith_ok
    · exact failsWith_config _
  · exact failsWith_config _

theorem mapM_str?_eq_some_iff {items : List Json} {keys : List Text} :
    items.mapM Json.str? = some keys ↔ items = keys.map .str := by
  induction items generalizing keys with
  | nil => cases keys <;> simp
  | cons item items ih =>
    cases item with
    | str key => cases keys <;> simp [Json.str?, Option.bind_eq_some_iff, ih, and_comm]
    | _ => cases keys <;> simp [Json.str?]

theorem exists_readCategories_iff (settings : Settings) {fields : Fields Json} :
    (∃ categories, readCategories settings fields = .ok categories) ↔ CategoriesGiven fields := by
  unfold readCategories CategoriesGiven
  cases Fields.get? "categoryOrder" fields with
  | none => simp
  | some data =>
    cases data with
    | list items =>
      cases hkeys : items.mapM Json.str? with
      | none => simp [hkeys, ← mapM_str?_eq_some_iff]
      | some keys => simp [hkeys, ← mapM_str?_eq_some_iff]
    | _ => simp

theorem exists_resolvePath_iff (root : Path) {data : Json} :
    (∃ path, resolvePath root data = .ok path) ↔ ∃ text, data = .str text := by
  cases data <;> simp [resolvePath]

theorem failsWith_resolvePath {data : Json} :
    FailsWith IsConfigFault (resolvePath root data) ↔ ∃ text, data = .str text := by
  rw [← exists_resolvePath_iff root, failsWith_iff]
  refine or_iff_left ?_
  rintro ⟨_, hpath, _, rfl⟩
  cases data <;> cases hpath

theorem readDocument_of_missing {index : Nat} {item : Json}
    (h : item.field? "template" = none ∨ item.field? "output" = none) :
    readDocument root index item = .error (.config (.incompleteDocument index)) := by
  unfold readDocument
  split
  · rename_i htemplate houtput
    obtain h | h := h
    · cases htemplate.symm.trans h
    · cases houtput.symm.trans h
  · rfl

theorem readDocument_of_paths {index : Nat} {item template output : Json}
    (htemplate : item.field? "template" = some template)
    (houtput : item.field? "output" = some output) :
    readDocument root index item = resolvePath root template >>= fun template =>
      resolvePath root output >>= fun output => .ok ⟨template, output⟩ := by
  rw [readDocument, htemplate, houtput]
  rfl

theorem exists_readDocument_iff {index : Nat} {item : Json} :
    (∃ job, readDocument root index item = .ok job) ↔ IsDocument item := by
  constructor
  · rintro ⟨job, h⟩
    cases htemplate : item.field? "template" with
    | none => cases (readDocument_of_missing (.inl htemplate)).symm.trans h
    | some template =>
      cases houtput : item.field? "output" with
      | none => cases (readDocument_of_missing (.inr houtput)).symm.trans h
      | some output =>
        rw [readDocument_of_paths htemplate houtput, bind_eq_ok] at h
        obtain ⟨templatePath, hfirst, h⟩ := h
        obtain ⟨outputPath, hsecond, -⟩ := bind_eq_ok.mp h
        obtain ⟨templateText, rfl⟩ := (exists_resolvePath_iff root).mp ⟨_, hfirst⟩
        obtain ⟨outputText, rfl⟩ := (exists_resolvePath_iff root).mp ⟨_, hsecond⟩
        exact ⟨templateText, outputText, htemplate, houtput⟩
  · rintro ⟨template, output, htemplate, houtput⟩
    exact ⟨_, readDocument_of_paths htemplate houtput⟩

theorem failsWith_readDocument {index : Nat} {item : Json} :
    FailsWith IsConfigFault (readDocument root index item) ↔ HasTextPaths item := by
  constructor
  · intro h template output htemplate houtput
    rw [readDocument_of_paths htemplate houtput, failsWith_bind, failsWith_resolvePath] at h
    obtain ⟨⟨templateText, rfl⟩, h⟩ := h
    have houtputPath := h _ rfl
    rw [failsWith_bind, failsWith_resolvePath] at houtputPath
    obtain ⟨⟨outputText, rfl⟩, -⟩ := houtputPath
    exact ⟨templateText, outputText, htemplate, houtput⟩
  · intro h
    cases htemplate : item.field? "template" with
    | none =>
      rw [readDocument_of_missing (.inl htemplate)]
      exact failsWith_config _
    | some template =>
      cases houtput : item.field? "output" with
      | none =>
        rw [readDocument_of_missing (.inr houtput)]
        exact failsWith_config _
      | some output =>
        obtain ⟨job, hjob⟩ := exists_readDocument_iff.mpr (h template output htemplate houtput)
        rw [hjob]
        exact failsWith_ok

theorem failsWith_readDocuments {index : Nat} {items : List Json} :
    FailsWith IsConfigFault (readDocuments root index items) ↔
      ∀ before item after, items = before ++ item :: after → (∀ other ∈ before, IsDocument other) →
        HasTextPaths item := by
  induction items generalizing index with
  | nil => simp [readDocuments, FailsWith]
  | cons first items ih =>
    have hrest (job : Job) :
        FailsWith IsConfigFault (readDocuments root (index + 1) items >>=
          fun jobs => (pure (job :: jobs) : Except Failure (List Job))) ↔
        FailsWith IsConfigFault (readDocuments root (index + 1) items) :=
      failsWith_bind.trans (and_iff_left fun _ _ => failsWith_ok)
    rw [readDocuments, failsWith_bind, failsWith_readDocument]
    simp only [hrest, ih]
    constructor
    · rintro ⟨hfirst, hitems⟩ before item after heq hbefore
      cases before with
      | nil =>
        cases heq
        exact hfirst
      | cons other before =>
        cases heq
        obtain ⟨hother, hbefore⟩ := List.forall_mem_cons.mp hbefore
        obtain ⟨job, hjob⟩ := exists_readDocument_iff.mpr hother
        exact hitems job hjob before item after rfl hbefore
    · intro h
      refine ⟨h [] first items rfl (List.forall_mem_nil _),
        fun job hjob before item after heq hbefore => ?_⟩
      have hdocument := exists_readDocument_iff.mp ⟨job, hjob⟩
      exact h (first :: before) item after (congrArg _ heq)
        (List.forall_mem_cons.mpr ⟨hdocument, hbefore⟩)

theorem failsWith_readDocuments_texts (texts : List Text) :
    FailsWith IsConfigFault (readDocuments root 0 (texts.map .str)) := by
  rw [failsWith_readDocuments]
  rintro before item after heq - template output htemplate -
  have hitem : item ∈ texts.map Json.str := heq ▸ List.mem_append_right _ List.mem_cons_self
  obtain ⟨text, -, rfl⟩ := List.mem_map.mp hitem
  cases htemplate

def readGiven (root : Path) (given : Json) : Except Failure (List Job) :=
  match parts? given with
  | some items => readDocuments root 0 items
  | none => .error (.notIterable given.typeName)

theorem failsWith_readGiven {given : Json} : FailsWith IsConfigFault (readGiven root given) ↔
    Documents given := by
  constructor
  · intro h
    cases given with
    | list items => exact .list (failsWith_readDocuments.mp h)
    | record fields => exact .record fields
    | str text => exact .str text
    | _ => exact absurd h (not_failsWith nofun)
  · intro h
    cases h with
    | list hitems => exact failsWith_readDocuments.mpr hitems
    | record fields => exact failsWith_readDocuments_texts (Table.keys fields)
    | str text =>
      have hparts :
          readGiven root (.str text) =
            readDocuments root 0 ((text.points.map (⟨[·]⟩)).map .str) := by
        rw [List.map_map]
        rfl
      rw [hparts]
      exact failsWith_readDocuments_texts _

theorem ofFields_eq : ofFields root settings fields =
    readLicence settings fields >>= fun licence =>
    readCategories settings fields >>= fun categories =>
    readGiven root ((Fields.get? "documents" fields).getD (.list [])) >>= fun documents =>
      .ok ⟨root, readVersion fields, licence.1, licence.2, categories, documents⟩ := by
  unfold ofFields readGiven
  refine bind_congr fun licence => bind_congr fun categories => ?_
  dsimp only
  cases parts? ((Fields.get? "documents" fields).getD (.list [])) <;> rfl

theorem failsWith_ofFields : FailsWith IsConfigFault (ofFields root settings fields) ↔
    DocumentsGiven fields := by
  have hgiven : Documents ((Fields.get? "documents" fields).getD (.list [])) ↔
      ∀ data, Fields.get? "documents" fields = some data → Documents data := by
    cases Fields.get? "documents" fields with
    | none => exact iff_of_true (.list fun before _ _ h => by cases before <;> cases h) nofun
    | some data => simp
  have hok {α β : Type} {f : α → β} {x : Except Failure α} :
      FailsWith IsConfigFault (x >>= fun a => .ok (f a)) ↔ FailsWith IsConfigFault x :=
    failsWith_bind.trans (and_iff_left fun _ _ => failsWith_ok)
  simp only [ofFields_eq, failsWith_bind, hok, failsWith_readLicence,
    failsWith_readCategories, true_and, failsWith_readGiven, hgiven]
  unfold DocumentsGiven
  rw [← exists_readLicence_iff settings, ← exists_readCategories_iff settings]
  constructor
  · rintro h ⟨licence, hlicence⟩ ⟨categories, hcategories⟩
    exact h licence hlicence categories hcategories
  · intro h licence hlicence categories hcategories
    exact h ⟨licence, hlicence⟩ ⟨categories, hcategories⟩

def jsonFailure (path : Path) : Json.Fault → Failure
  | .malformed => .config (.invalidJson path.text)
  | .nestedTooDeeply => .nestedTooDeeply
  | .integerTooLong digits => .integerTooLong digits

def ofData (settings : Settings) (path : Path) : Json → Except Failure Project
  | .record fields => ofFields (rootOf path) settings fields
  | _ => .error (.config (.notObject path.text))

theorem ofFile_eq : ofFile files path =
    Json.readFile (.config <| .unreadable path.text ·) (jsonFailure path) files path.text := rfl

theorem reports_isConfigFault (path : Path) :
    Json.Reports IsConfigFault (.config <| .unreadable path.text ·) where
  reason := fun _ => ⟨_, rfl⟩
  file := nofun
  undecodable := nofun

theorem failsWith_ofData {data : Json} : FailsWith IsConfigFault (ofData settings path data) ↔
    ∀ fields, data = .record fields → DocumentsGiven fields := by
  cases data with
  | record fields => simp [ofData, failsWith_ofFields]
  | _ => exact iff_of_true (failsWith_config _) nofun

theorem failsWith_jsonFailure {text : String} :
    FailsWith (fun fault => IsConfigFault (jsonFailure path fault)) (Json.read .file text) ↔
      ¬ Json.Overlong .file (Json.Token.ofText text) ∧
        ¬ Json.Overdeep .file (Json.Token.ofText text) := by
  rw [← Json.read_eq_error_iff, ← Json.read_eq_overdeep_iff]
  constructor
  · intro h
    constructor
    · rintro ⟨digits, hlong⟩
      obtain ⟨_, hfault⟩ := h _ hlong
      cases hfault
    · intro hdeep
      obtain ⟨_, hfault⟩ := h _ hdeep
      cases hfault
  · rintro ⟨hlong, hdeep⟩ fault hfault
    cases fault with
    | malformed => exact ⟨_, rfl⟩
    | nestedTooDeeply => exact absurd hfault hdeep
    | integerTooLong digits => exact absurd ⟨digits, hfault⟩ hlong

theorem failsWith_ofFile : FailsWith IsConfigFault (ofFile files path >>= ofData settings path) ↔
    path.text.Nameable ∧ ∀ bytes, files.read path.text = .ok bytes → Legible bytes := by
  rw [ofFile_eq, Json.failsWith_readFile_bind (reports_isConfigFault path)]
  simp only [failsWith_jsonFailure, failsWith_ofData, Legible, Utf8.decode_eq_ok_iff, and_assoc]
  refine and_congr_right fun _ => forall₂_congr fun bytes _ => exists_congr fun chars => ?_
  refine and_congr_right fun _ => and_congr_right fun _ => and_congr_right fun _ => ?_
  constructor
  · exact fun hdata fields hfields => hdata _ hfields fields rfl
  · rintro hdata _ hfields fields rfl
    exact hdata fields hfields

theorem load_eq (files : FileSystem) (settings : Settings) (given : Option Path) :
    load files settings given =
      isThere files (given.getD (Path.ofText settings.projectPath)) >>= fun there =>
        let path := given.getD (Path.ofText settings.projectPath)
        if there then (ofFile files path >>= ofData settings path).map (·, [])
        else .ok (ofSettings (rootOf path) settings, [⟨LogRecord.infoLevel, logger,
          "No project config at " ++ path.text ++ ", using environment defaults"⟩]) := by
  unfold load
  dsimp only
  generalize given.getD (Path.ofText settings.projectPath) = path
  refine bind_congr fun there => ?_
  cases there with
  | false => rfl
  | true =>
    change (ofFile files path >>= _) = _
    cases ofFile files path with
    | error failure => rfl
    | ok data =>
      change _ = (ofData settings path data).map _
      cases data with
      | record fields =>
        change (ofFields (rootOf path) settings fields >>= _) =
          (ofFields (rootOf path) settings fields).map _
        cases ofFields (rootOf path) settings fields <;> rfl
      | _ => rfl

theorem failsWith_isThere : FailsWith IsConfigFault (isThere files path) ↔
    ∀ named, files.lookup path.text ≠ .error (.system .nameTooLong named) := by
  unfold isThere
  split
  · rename_i hlookup
    exact iff_of_true nofun fun named h => nomatch hlookup.symm.trans h
  · rename_i named hlookup
    exact iff_of_false (not_failsWith nofun) fun h => h named hlookup
  · rename_i error hother hlookup
    refine iff_of_true nofun fun named h => hother named ?_
    exact Except.error.inj (hlookup.symm.trans h)

theorem isThere_eq_true_iff : isThere files path = .ok true ↔
    ∃ node, files.lookup path.text = .ok (some node) := by
  unfold isThere
  split
  · rename_i node hlookup
    cases node <;> simp [hlookup]
  · rename_i hlookup
    simp [hlookup]
  · rename_i hlookup
    simp [hlookup]

theorem failsWith_load (files : FileSystem) (settings : Settings) (given : Option Path) :
    FailsWith IsConfigFault (load files settings given) ↔
      let path := given.getD (Path.ofText settings.projectPath)
      (∀ named, files.lookup path.text ≠ .error (.system .nameTooLong named)) ∧
        ∀ bytes, files.read path.text = .ok bytes → Legible bytes := by
  rw [load_eq, failsWith_bind, failsWith_isThere]
  generalize given.getD (Path.ofText settings.projectPath) = path
  refine and_congr_right fun _ => ?_
  constructor
  · intro h bytes hbytes
    have hthere := isThere_eq_true_iff.mpr ⟨_, FileSystem.read_eq_ok_iff.mp hbytes⟩
    exact (failsWith_ofFile.mp (failsWith_map.mp (h true hthere))).2 bytes hbytes
  · rintro h (_ | _) hthere
    · exact failsWith_ok
    obtain ⟨node, hnode⟩ := isThere_eq_true_iff.mp hthere
    exact failsWith_map.mpr (failsWith_ofFile.mpr ⟨FileSystem.nameable_of_lookup hnode, h⟩)

/-- Loading ends in a project or in a fault of its configuration exactly if the path is not too long
to be looked up and the bytes that are read there, if any are, are legible. -/
theorem load_fails_with_config_iff (files : FileSystem)
    (settings : Settings) (given : Option Path) :
    ((∃ result, load files settings given = .ok result) ∨
        ∃ error, load files settings given = .error (.config error)) ↔
      let path := given.getD (Path.ofText settings.projectPath)
      (∀ named, files.lookup path.text ≠ .error (.system .nameTooLong named)) ∧
        ∀ bytes, files.read path.text = .ok bytes → Legible bytes :=
  failsWith_exists_iff.symm.trans (failsWith_load files settings given)

def illegibleFiles : FileSystem where
  workingDirectory := Path.ofText "/work"
  nodes := [
    ([Utf8.nameBytes "work"], .directory),
    ([Utf8.nameBytes "work", Utf8.nameBytes "package.json"], .file ⟨#[0xff]⟩)]

/-- Bytes that are no text are not reported as a fault of the configuration. -/
theorem load_undecodable : load illegibleFiles {} (some (Path.ofText "package.json")) =
    .error (.undecodable ⟨.invalidStart, 0, 1, 0xff⟩) := by
  rfl

end CatalogPress.Project
