import AdminPlatform.Lib.Like
import AdminPlatform.Lists.Selection

/-! # Search

The lists of users, roles and screens, and the users export, take a search text and put it
between two `%` as it is. So a text finds exactly the rows that contain it if and only if it
has none of the characters with a meaning in a pattern, and can be sent to the database at all
(`search_iff`). -/

namespace AdminPlatform.Lists
open AdminPlatform.Lib AdminPlatform.Lib.Like ExportService

/-! ## Statements with a search text -/

/-- A text that can be a parameter of a statement: PostgreSQL has no character NUL. -/
def Bindable (text : String) : Prop := Char.ofNat 0 ∉ text.toList

instance (text : String) : Decidable (Bindable text) := by
  unfold Bindable; infer_instance

/-- What a statement answers that has the search text among its parameters. An empty text is
not sent. -/
def answered {α : Type} (search : Option String) (rows : List α) : Except DbError (List α) :=
  if ∀ text ∈ search, Bindable text then .ok rows else .error .dataError

theorem answered_of_bindable {α : Type} {text : String} (h : Bindable text) (rows : List α) :
    answered (some text) rows = .ok rows :=
  if_pos fun _ ht => Option.mem_some.mp ht ▸ h

theorem bindable_of_answered {α : Type} {text : String} {rows found : List α}
    (h : answered (some text) rows = .ok found) : Bindable text := by
  unfold answered at h
  split at h
  · rename_i hall
    exact hall text rfl
  · cases h

/-! ## What a search is to find -/

section
variable (env : Env) (fold : Char → Char) (text : String)

/-- The text occurs in a column, ignoring case. -/
def Occurs (column : String) : Prop := text.toList.map fold <:+: column.toList.map fold

instance (column : String) : Decidable (Occurs fold text column) := by
  unfold Occurs; infer_instance

/-- A search in some columns: on every content of the tables, the statement is answered, and
among the rows that the other filters leave it finds those in which a column contains the
text. -/
def Finds {ι ρ α : Type} (rows : Option String → Database → ι → List α) (shown : ρ → α)
    (columns : ρ → List String) : Prop :=
  ∀ s filters, ∃ found, answered (some text) (rows (some text) s filters) = .ok found ∧
    ∀ row, shown row ∈ found ↔
      shown row ∈ rows none s filters ∧ ∃ column ∈ columns row, Occurs fold text column

def FindsUsers : Prop :=
  Finds fold text (fun search s (filters : UserRepository.Filters) =>
    UserRepository.matching env { filters with search := search } s) id
    fun row => [row.username, row.email]

def FindsRoles : Prop :=
  Finds fold text (fun search s status => RoleRepository.matching env search status s) id
    fun row => [row.name]

def FindsScreens : Prop :=
  Finds fold text (fun search s status => ScreenRepository.matching env search status s) id
    fun row => [row.name, row.code]

/-- The rows of a users export, for the filters that were stored with it. -/
def exportRows (search : Option String) (s : Database) (status : Option Status) : List ExportRow :=
  selected env usersExportSpec (ExportFilters.users { search := search, status := status }).dump s

def FindsExported : Prop :=
  Finds fold text (exportRows env) ExportRow.user fun row => [row.username, row.email]

/-- The `ILIKE` of the database, where case is folded character by character. -/
def Ilike : Prop := ∀ pattern, Bindable pattern → ∀ column,
  env.ilike pattern column = Like.ilike fold pattern.toList column.toList

end

/-! ## What it finds -/

section Search
variable {env : Env} {fold : Char → Char} {text : String}

/-- What `ILIKE` finds is what contains the text. -/
abbrev FindsOccurrences (env : Env) (fold : Char → Char) (text : String) : Prop :=
  ∀ column, env.ilike s!"%{text}%" column = true ↔ Occurs fold text column

theorem toList_pattern (text : String) :
    (s!"%{text}%").toList = '%' :: (text.toList ++ ['%']) := by
  show ("%" ++ text ++ "%").toList = _
  simp

theorem findsOccurrences_iff (hilike : Ilike env fold) (hfold : FoldsCase fold)
    (hbind : Bindable text) : FindsOccurrences env fold text ↔ Plain text.toList := by
  have hpattern : Bindable s!"%{text}%" := by
    rw [Bindable, toList_pattern]
    simpa [Bindable] using hbind
  rw [← ilike_between_iff hfold]
  constructor
  · intro h column
    have hcolumn := h (String.ofList column)
    rwa [hilike _ hpattern, toList_pattern, String.toList_ofList, Occurs,
      String.toList_ofList] at hcolumn
  · intro h column
    rw [hilike _ hpattern, toList_pattern]
    exact h column.toList

theorem occurs_empty (column : String) : Occurs fold "" column := List.nil_infix

/-- The search filter of a list. -/
theorem searchFilter_iff (h : FindsOccurrences env fold text) {columns : List String}
    (hne : columns ≠ []) :
    searchFilter env (some text) columns = true ↔ ∃ column ∈ columns, Occurs fold text column := by
  obtain ⟨column, hcolumn⟩ := List.exists_mem_of_ne_nil columns hne
  by_cases htext : text = ""
  · subst htext
    exact iff_of_true (by simp [searchFilter]) ⟨column, hcolumn, occurs_empty column⟩
  · simp [searchFilter, htext, h _]

/-- **A list that searches some columns** of the rows that its other filters leave. It is enough
that it can hold a row with any given text in all of these columns. -/
theorem finds_iff {ι ρ α : Type} {rows : Option String → Database → ι → List α} {shown : ρ → α}
    {columns : ρ → List String} (hilike : Ilike env fold) (hfold : FoldsCase fold)
    (hmem : ∀ search s filters row, shown row ∈ rows search s filters ↔
      shown row ∈ rows none s filters ∧ searchFilter env search (columns row) = true)
    (hne : ∀ row, columns row ≠ [])
    (hrows : ∀ column, ∃ s filters row, shown row ∈ rows none s filters ∧
      ∀ c ∈ columns row, c = column) :
    Finds fold text rows shown columns ↔ Plain text.toList ∧ Bindable text := by
  constructor
  · intro h
    have hbind : Bindable text := by
      obtain ⟨s, filters, -⟩ := hrows text
      obtain ⟨found, hfound, -⟩ := h s filters
      exact bindable_of_answered hfound
    refine ⟨(findsOccurrences_iff hilike hfold hbind).mp ?_, hbind⟩
    by_cases htext : text = ""
    · subst htext
      exact (findsOccurrences_iff hilike hfold hbind).mpr fun c hc => by cases hc
    intro column
    obtain ⟨s, filters, row, hleft, hall⟩ := hrows column
    obtain ⟨c, hc⟩ := List.exists_mem_of_ne_nil _ (hne row)
    obtain ⟨found, hfound, hrow⟩ := h s filters
    rw [answered_of_bindable hbind] at hfound
    obtain rfl := Except.ok.inj hfound
    have hfilter := hrow row
    rw [hmem] at hfilter
    simp only [hleft, true_and, searchFilter, htext, decide_false, Bool.false_or,
      List.any_eq_true] at hfilter
    constructor
    · intro hlike
      obtain ⟨d, hd, hoccurs⟩ := hfilter.mp ⟨c, hc, (hall c hc).symm ▸ hlike⟩
      exact hall d hd ▸ hoccurs
    · intro hoccurs
      obtain ⟨d, hd, hlike⟩ := hfilter.mpr ⟨c, hc, (hall c hc).symm ▸ hoccurs⟩
      exact hall d hd ▸ hlike
  · rintro ⟨hplain, hbind⟩ s filters
    refine ⟨_, answered_of_bindable hbind _, fun row => ?_⟩
    rw [hmem, searchFilter_iff ((findsOccurrences_iff hilike hfold hbind).mpr hplain) (hne row)]

/-! ## One list after another -/

theorem mem_users (search : Option String) (filters : UserRepository.Filters) {s : Database}
    {row : PlatformAdmin} : row ∈ UserRepository.matching env { filters with search := search } s ↔
      row ∈ UserRepository.matching env { filters with search := none } s ∧
        searchFilter env search [row.username, row.email] = true := by
  simp only [UserRepository.matching, Table.mem_select, Bool.and_eq_true]
  constructor
  · rintro ⟨hrow, ⟨⟨hsearch, hstatus⟩, hfrom⟩, hto⟩
    exact ⟨⟨hrow, ⟨⟨rfl, hstatus⟩, hfrom⟩, hto⟩, hsearch⟩
  · rintro ⟨⟨hrow, ⟨⟨-, hstatus⟩, hfrom⟩, hto⟩, hsearch⟩
    exact ⟨hrow, ⟨⟨hsearch, hstatus⟩, hfrom⟩, hto⟩

theorem mem_roles (search : Option String) {s : Database} {status : Option Status} {row : Role} :
    row ∈ RoleRepository.matching env search status s ↔
      row ∈ RoleRepository.matching env none status s ∧ searchFilter env search [row.name] = true := by
  simp only [RoleRepository.matching, Table.mem_select, Bool.and_eq_true]
  constructor
  · rintro ⟨hrow, hsearch, hstatus⟩
    exact ⟨⟨hrow, rfl, hstatus⟩, hsearch⟩
  · rintro ⟨⟨hrow, -, hstatus⟩, hsearch⟩
    exact ⟨hrow, hsearch, hstatus⟩

theorem mem_screens (search : Option String) {s : Database} {status : Option Status}
    {row : Screen} : row ∈ ScreenRepository.matching env search status s ↔
      row ∈ ScreenRepository.matching env none status s ∧
        searchFilter env search [row.name, row.code] = true := by
  simp only [ScreenRepository.matching, Table.mem_select, Bool.and_eq_true]
  constructor
  · rintro ⟨hrow, hsearch, hstatus⟩
    exact ⟨⟨hrow, rfl, hstatus⟩, hsearch⟩
  · rintro ⟨⟨hrow, -, hstatus⟩, hsearch⟩
    exact ⟨hrow, hsearch, hstatus⟩

/-- The rows of a users export are those of the list. -/
theorem mem_exportRows (search : Option String) (status : Option Status) {s : Database}
    {row : PlatformAdmin} : .user row ∈ exportRows env search s status ↔
      row ∈ UserRepository.matching env { search := none, status := status } s ∧
        searchFilter env search [row.username, row.email] = true := by
  rw [← mem_users search { status := status }, exportRows, selected_users,
    usersFiltersFromDict_dump, platformAdminMatches_eq]
  simp [resolveUserFilters, resolveFilter_eq enumeration_statuses]

/-- A database with one admin, whose name and email are the given text. -/
theorem exists_admin (env : Env) (column : String) : ∃ (s : Database) (row : PlatformAdmin),
    row ∈ UserRepository.matching env {} s ∧ ∀ c ∈ [row.username, row.email], c = column := by
  let row := Administration.sampleAdmin 1 column column
  refine ⟨{ Database.empty with admins := ⟨[row], List.pairwise_singleton _ _⟩ }, row,
    List.mem_filter.mpr ⟨List.mem_singleton.mpr rfl, rfl⟩, ?_⟩
  simp [row, Administration.sampleAdmin]

theorem findsUsers_iff (hilike : Ilike env fold) (hfold : FoldsCase fold) :
    FindsUsers env fold text ↔ Plain text.toList ∧ Bindable text := by
  refine finds_iff hilike hfold (fun search s filters row => mem_users search filters)
    (fun row => List.cons_ne_nil _ _) fun column => ?_
  obtain ⟨s, row, hrow, hcolumns⟩ := exists_admin env column
  exact ⟨s, {}, row, hrow, hcolumns⟩

theorem findsRoles_iff (hilike : Ilike env fold) (hfold : FoldsCase fold) :
    FindsRoles env fold text ↔ Plain text.toList ∧ Bindable text := by
  refine finds_iff hilike hfold (fun search s status row => mem_roles search)
    (fun row => List.cons_ne_nil _ _) fun column => ?_
  let row : Role := { Administration.superAdminRole with name := column }
  refine ⟨{ Database.empty with roles := ⟨[row], List.pairwise_singleton _ _⟩ }, none, row,
    List.mem_filter.mpr ⟨List.mem_singleton.mpr rfl, rfl⟩, ?_⟩
  simp [row]

theorem findsScreens_iff (hilike : Ilike env fold) (hfold : FoldsCase fold) :
    FindsScreens env fold text ↔ Plain text.toList ∧ Bindable text := by
  refine finds_iff hilike hfold (fun search s status row => mem_screens search)
    (fun row => List.cons_ne_nil _ _) fun column => ?_
  let row := Administration.catalogScreen 1 column column
  refine ⟨{ Database.empty with screens := ⟨[row], List.pairwise_singleton _ _⟩ }, none, row,
    List.mem_filter.mpr ⟨List.mem_singleton.mpr rfl, rfl⟩, ?_⟩
  simp [row, Administration.catalogScreen]

theorem findsExported_iff (hilike : Ilike env fold) (hfold : FoldsCase fold) :
    FindsExported env fold text ↔ Plain text.toList ∧ Bindable text := by
  have hall : ∀ s status row, ExportRow.user row ∈ exportRows env none s status ↔
      row ∈ UserRepository.matching env { search := none, status := status } s := by
    intro s status row
    rw [mem_exportRows]
    exact and_iff_left rfl
  refine finds_iff hilike hfold (fun search s status row => ?_)
    (fun row => List.cons_ne_nil _ _) fun column => ?_
  · rw [mem_exportRows, hall]
  · obtain ⟨s, row, hrow, hcolumns⟩ := exists_admin env column
    exact ⟨s, none, row, (hall s none row).mpr hrow, hcolumns⟩

end Search

/-- **When search is substring search.** Each of the three lists, and the users export, finds
for every content of its table exactly the rows that contain the text, ignoring case, if and
only if the text has no `%`, no `_` and no backslash, and no NUL, which the database refuses. -/
theorem search_iff {env : Env} {fold : Char → Char} (hilike : Ilike env fold)
    (hfold : FoldsCase fold) (text : String) :
    (FindsUsers env fold text ↔ Plain text.toList ∧ Bindable text) ∧
      (FindsRoles env fold text ↔ Plain text.toList ∧ Bindable text) ∧
      (FindsScreens env fold text ↔ Plain text.toList ∧ Bindable text) ∧
      (FindsExported env fold text ↔ Plain text.toList ∧ Bindable text) :=
  ⟨findsUsers_iff hilike hfold, findsRoles_iff hilike hfold, findsScreens_iff hilike hfold,
    findsExported_iff hilike hfold⟩

/-! ## An underscore -/

open Administration (sampleEnv sampleAdmin)

/-- A database that folds the case of ASCII letters. -/
def searchEnv : Env :=
  { sampleEnv with
    ilike := fun pattern column => Like.ilike Char.toLower pattern.toList column.toList }

theorem ilike_searchEnv : Ilike searchEnv Char.toLower := fun _ _ _ => rfl

theorem foldsCase_toLower : FoldsCase Char.toLower := by
  have hall : ∀ n < 128, special.all (fun m =>
      decide ((Char.ofNat n).toLower = m ↔ Char.ofNat n = m)) = true := by decide +kernel
  have hascii : ∀ n < 128, ∀ m ∈ special, (Char.ofNat n).toLower = m ↔ Char.ofNat n = m :=
    fun n hn m hm => of_decide_eq_true (List.all_eq_true.mp (hall n hn) m hm)
  intro m hm c
  by_cases hc : c.toNat < 128
  · rw [← Char.ofNat_toNat c]
    exact hascii c.toNat hc m hm
  · have hsame : c.toLower = c := by
      refine dif_neg fun hupper => hc ?_
      have hle : c.toNat ≤ 'Z'.toNat := hupper.2
      exact hle.trans_lt (by decide)
    rw [hsame]

/-- A search for a hyphenated name finds the names that contain it. -/
theorem search_iff_hyphen : FindsUsers searchEnv Char.toLower "John-Doe" :=
  (search_iff ilike_searchEnv foldsCase_toLower "John-Doe").1.mpr (by decide)

/-- **A search with an underscore** finds a name that does not contain it. -/
theorem not_findsUsers_underscore : ¬ FindsUsers searchEnv Char.toLower "john_doe" := by
  intro h
  let row := sampleAdmin 1 "john-doe" "john-doe@example.com"
  let s : Database := { Database.empty with admins := ⟨[row], List.pairwise_singleton _ _⟩ }
  have hfound : row ∈ UserRepository.matching searchEnv { search := some "john_doe" } s := by
    decide +kernel
  obtain ⟨found, hanswer, hrows⟩ := h s {}
  obtain rfl := Except.ok.inj hanswer
  obtain ⟨-, hoccurs⟩ := (hrows row).mp hfound
  exact absurd hoccurs (by decide +kernel)

end AdminPlatform.Lists
