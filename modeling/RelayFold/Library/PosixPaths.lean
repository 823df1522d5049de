import Mathlib.Data.List.Infix
import Mathlib.Tactic.Common

/-! Texts as POSIX paths: joining, normalizing and resolving them, as
`path.normalize` and `path.resolve` of Node and `PathBuf::join` of Rust do. -/
namespace PosixPaths

abbrev Text := List Char

def isAbsolute (text : Text) : Bool := text.head? = some '/'

/-- Take one more component: empty and single dots are skipped, double dots
remove the last one. -/
def step (allowAboveRoot : Bool) (kept : List Text) (part : Text) : List Text :=
  if part = [] ∨ part = ['.'] then kept
  else if part = ['.', '.'] then
    match kept with
    | [] => if allowAboveRoot then [part] else []
    | last :: earlier =>
        if last = ['.', '.'] then if allowAboveRoot then part :: kept else kept else earlier
  else part :: kept

/-- The components that remain, the last one first. -/
def fold (allowAboveRoot : Bool) (kept : List Text) (text : Text) : List Text :=
  (text.splitOn '/').foldl (step allowAboveRoot) kept

def components (allowAboveRoot : Bool) (text : Text) : List Text :=
  (fold allowAboveRoot [] text).reverse

def joined (parts : List Text) : Text := ['/'].intercalate parts

def normalize (text : Text) : Text :=
  if text = [] then ['.']
  else
    let absolute := isAbsolute text
    let trailing := text.getLast? = some '/'
    let path := joined (components (!absolute) text)
    if path = [] then if absolute then ['/'] else if trailing then ['.', '/'] else ['.']
    else
      let path := if trailing then path ++ ['/'] else path
      if absolute then '/' :: path else path

/-- Put a path before what was found, unless that is absolute already. -/
def prepend (path : Text) (found : Text × Bool) : Text × Bool :=
  if found.2 || path.isEmpty then found else (path ++ '/' :: found.1, isAbsolute path)

/-- The working directory comes first where no path was absolute. -/
def anchored (workingDirectory : Text) (found : Text × Bool) : Text × Bool :=
  if found.2 then found else (workingDirectory ++ '/' :: found.1, isAbsolute workingDirectory)

/-- The paths from the right on, until one is absolute. -/
def resolve (workingDirectory : Text) (paths : List Text) : Text :=
  let found := anchored workingDirectory (paths.foldr prepend ([], false))
  let path := joined (components (!found.2) found.1)
  if found.2 then '/' :: path else if path = [] then ['.'] else path

/-- `PathBuf::join`. -/
def join (base path : Text) : Text :=
  if isAbsolute path then path
  else if base = [] ∨ base.getLast? = some '/' then base ++ path
  else base ++ '/' :: path

/-- The names on the way to a path. -/
def names (text : Text) : List Text := (text.splitOn '/').filter (· ≠ [])

/-- A component that stands for itself. -/
structure IsName (part : Text) : Prop where
  nonempty : part ≠ []
  plain : '/' ∉ part
  notDot : part ≠ ['.']
  notDots : part ≠ ['.', '.']

variable {allowAboveRoot : Bool} {kept : List Text} {text : Text}

/-! ### Components -/

theorem step_name {part : Text} (h : IsName part) : step allowAboveRoot kept part = part :: kept := by
  unfold step
  rw [if_neg (by simp [h.nonempty, h.notDot]), if_neg h.notDots]

theorem step_empty (kept : List Text) : step allowAboveRoot kept [] = kept := if_pos (.inl rfl)

/-- The components of a longer path are taken in after those of its
beginning. -/
theorem fold_append (kept : List Text) (base rest : Text) :
    fold allowAboveRoot kept (base ++ '/' :: rest) =
      fold allowAboveRoot (fold allowAboveRoot kept base) rest := by
  rw [fold, List.splitOn_append_cons_self, List.foldl_append]
  rfl

theorem fold_nil (kept : List Text) : fold allowAboveRoot kept [] = kept := by
  rw [fold, List.splitOn_nil, List.foldl_cons, step_empty]
  rfl

/-- The parts between the separators hold none. -/
theorem plain_of_mem_splitOn {part : Text} (h : part ∈ text.splitOn '/') : '/' ∉ part := by
  induction text generalizing part with
  | nil =>
      rw [List.splitOn_nil, List.mem_singleton] at h
      rw [h]
      exact List.not_mem_nil
  | cons c text ih =>
      rw [List.splitOn_cons_eq_if_modifyHead] at h
      split at h
      · rcases List.mem_cons.mp h with rfl | hMem
        · exact List.not_mem_nil
        · exact ih hMem
      · rename_i hChar
        obtain ⟨first, rest, hSplit⟩ := List.exists_cons_of_ne_nil (List.splitOn_ne_nil '/' text)
        rw [hSplit, List.modifyHead_cons] at h
        rcases List.mem_cons.mp h with rfl | hMem
        · intro hSlash
          rcases List.mem_cons.mp hSlash with hSame | hRest
          · exact hChar (beq_iff_eq.mpr hSame.symm)
          · exact ih (hSplit ▸ List.mem_cons_self) hRest
        · exact ih (hSplit ▸ List.mem_cons_of_mem _ hMem)

/-- What a fold may keep: names, and double dots where they are allowed. -/
def Kept (allowAboveRoot : Bool) (part : Text) : Prop :=
  IsName part ∨ allowAboveRoot = true ∧ part = ['.', '.']

/-- Taking in a component that holds no slash keeps every component such. -/
theorem step_keeps {part : Text} (hPart : '/' ∉ part) (hKept : ∀ name ∈ kept, Kept allowAboveRoot name) :
    ∀ name ∈ step allowAboveRoot kept part, Kept allowAboveRoot name := by
  unfold step
  split
  · exact hKept
  · rename_i hSkip
    split
    · rename_i hDots
      cases kept with
      | nil =>
          intro name hMem
          dsimp only at hMem
          split at hMem
          · rename_i hAbove
            exact .inr ⟨hAbove, (List.mem_singleton.mp hMem).trans hDots⟩
          · exact absurd hMem List.not_mem_nil
      | cons last earlier =>
          dsimp only
          split
          · split
            · rename_i hAbove
              exact List.forall_mem_cons.mpr ⟨.inr ⟨hAbove, hDots⟩, hKept⟩
            · exact hKept
          · exact fun name hMem => hKept name (List.mem_cons_of_mem _ hMem)
    · rename_i hDots
      rw [not_or] at hSkip
      exact List.forall_mem_cons.mpr ⟨.inl ⟨hSkip.1, hPart, hSkip.2, hDots⟩, hKept⟩

theorem foldl_step_keeps {parts : List Text} (hParts : ∀ part ∈ parts, '/' ∉ part)
    (hKept : ∀ name ∈ kept, Kept allowAboveRoot name) :
    ∀ name ∈ parts.foldl (step allowAboveRoot) kept, Kept allowAboveRoot name := by
  induction parts generalizing kept with
  | nil => exact hKept
  | cons part parts ih =>
      rw [List.forall_mem_cons] at hParts
      exact ih hParts.2 (step_keeps hParts.1 hKept)

/-- What remains of a text are names, and double dots at most where it may lead
above its start. -/
theorem components_kept (allowAboveRoot : Bool) (text : Text) :
    ∀ name ∈ components allowAboveRoot text, Kept allowAboveRoot name := by
  intro name hMem
  refine foldl_step_keeps (fun part hPart => ?_) (fun _ hNone => absurd hNone List.not_mem_nil) name
    (List.mem_reverse.mp hMem)
  exact plain_of_mem_splitOn hPart

/-- A step that leaves no double dots is the same below any other
components. -/
theorem step_below {part : Text} (above : List Text) (h : ['.', '.'] ∉ step true kept part) :
    ['.', '.'] ∉ kept ∧ step false (kept ++ above) part = step true kept part ++ above := by
  unfold step at h ⊢
  by_cases hSkip : part = [] ∨ part = ['.']
  · rw [if_pos hSkip] at h
    rw [if_pos hSkip, if_pos hSkip]
    exact ⟨h, rfl⟩
  · rw [if_neg hSkip] at h
    rw [if_neg hSkip, if_neg hSkip]
    by_cases hDots : part = ['.', '.']
    · rw [if_pos hDots] at h
      rw [if_pos hDots, if_pos hDots]
      cases kept with
      | nil => exact absurd (hDots ▸ List.mem_singleton_self part) h
      | cons last earlier =>
          by_cases hLast : last = ['.', '.']
          · dsimp only at h
            rw [if_pos hLast, if_pos rfl, hDots] at h
            exact absurd List.mem_cons_self h
          · dsimp only [List.cons_append] at h ⊢
            rw [if_neg hLast] at h
            rw [if_neg hLast, if_neg hLast]
            refine ⟨fun hMem => ?_, rfl⟩
            exact (List.mem_cons.mp hMem).elim (fun hSame => hLast hSame.symm) h
    · rw [if_neg hDots] at h
      rw [if_neg hDots, if_neg hDots]
      exact ⟨fun hMem => h (List.mem_cons_of_mem _ hMem), rfl⟩

/-- If no double dots remain, the text never leaves the place from which it
starts, and what lies above plays no part. -/
theorem foldl_step_below {parts : List Text} (above : List Text)
    (h : ['.', '.'] ∉ parts.foldl (step true) kept) :
    ['.', '.'] ∉ kept ∧
      parts.foldl (step false) (kept ++ above) = parts.foldl (step true) kept ++ above := by
  induction parts generalizing kept with
  | nil => exact ⟨h, rfl⟩
  | cons part parts ih =>
      obtain ⟨hNext, hRest⟩ := ih h
      obtain ⟨hKept, hStep⟩ := step_below above hNext
      rw [List.foldl_cons, List.foldl_cons, hStep]
      exact ⟨hKept, hRest⟩

/-- A relative text whose components stay below takes them below any base. -/
theorem components_below {base : Text} (h : ['.', '.'] ∉ components true text) :
    components false (base ++ '/' :: text) = components false base ++ components true text := by
  have hFold := (foldl_step_below (fold false [] base)
    (fun hMem => h (List.mem_reverse.mpr hMem))).2
  rw [components, components, components, fold_append, ← List.reverse_append]
  exact congrArg List.reverse hFold

/-- Names in a row are their own components. -/
theorem components_joined {parts : List Text} (h : ∀ part ∈ parts, IsName part) (hNe : parts ≠ []) :
    components allowAboveRoot (joined parts) = parts := by
  have hFold (kept : List Text) : parts.foldl (step allowAboveRoot) kept = parts.reverse ++ kept := by
    clear hNe
    induction parts generalizing kept with
    | nil => rfl
    | cons part parts ih =>
        rw [List.forall_mem_cons] at h
        rw [List.foldl_cons, step_name h.1, ih h.2, List.reverse_cons, List.append_assoc]
        rfl
  rw [components, fold, joined, List.splitOn_intercalate '/' (fun part hMem => (h part hMem).plain)
    hNe, hFold, List.append_nil, List.reverse_reverse]

/-- Names that are joined by slashes are found again. -/
theorem names_joined {parts : List Text} (h : ∀ part ∈ parts, IsName part) :
    names (joined parts) = parts := by
  cases parts with
  | nil => rfl
  | cons part rest =>
      rw [names, joined, List.splitOn_intercalate '/' (fun part hMem => (h part hMem).plain)
        (List.cons_ne_nil part rest), List.filter_eq_self]
      exact fun part hMem => decide_eq_true (h part hMem).nonempty

/-! ### Normal texts -/

/-- Splitting at the slashes undoes the joining, except for the path of no
components. -/
theorem joined_splitOn {parts : List Text} (h : ∀ part ∈ parts, '/' ∉ part) (hNe : parts ≠ []) :
    (joined parts).splitOn '/' = parts := List.splitOn_intercalate '/' h hNe

theorem joined_singleton (part : Text) : joined [part] = part := by
  rw [joined, List.intercalate_singleton]

theorem joined_ne_nil {parts : List Text} (h : ∀ part ∈ parts, '/' ∉ part ∧ part ≠ [])
    (hNe : parts ≠ []) : joined parts ≠ [] := by
  intro hNil
  have hSplit := joined_splitOn (fun part hMem => (h part hMem).1) hNe
  rw [hNil, List.splitOn_nil] at hSplit
  exact (h [] (hSplit ▸ List.mem_singleton_self _)).2 rfl

/-- Nonempty parts neither start nor end with a separator. -/
theorem joined_ends {parts : List Text} (h : ∀ part ∈ parts, '/' ∉ part ∧ part ≠ [])
    (hNe : parts ≠ []) :
    isAbsolute (joined parts) = false ∧ (joined parts).getLast? ≠ some '/' := by
  have hSplit := joined_splitOn (fun part hMem => (h part hMem).1) hNe
  have hNoEmpty : [] ∉ (joined parts).splitOn '/' := fun hMem => (h [] (hSplit ▸ hMem)).2 rfl
  generalize joined parts = text at hNoEmpty
  constructor
  · rw [isAbsolute, decide_eq_false_iff_not]
    intro hHead
    cases text with
    | nil => cases hHead
    | cons c rest =>
        cases hHead
        refine hNoEmpty ?_
        rw [show '/' :: rest = [] ++ '/' :: rest from rfl, List.splitOn_append_cons_self,
          List.splitOn_nil]
        exact List.mem_append_left _ (List.mem_singleton_self _)
  · intro hLast
    obtain ⟨first, rfl⟩ := List.getLast?_eq_some_iff.mp hLast
    refine hNoEmpty ?_
    rw [List.splitOn_append_cons_self, List.splitOn_nil]
    exact List.mem_append_right _ (List.mem_singleton_self _)

theorem IsName.ends {part : Text} (h : IsName part) :
    isAbsolute part = false ∧ part.getLast? ≠ some '/' := by
  rw [← joined_singleton part]
  exact joined_ends (List.forall_mem_singleton.mpr ⟨h.plain, h.nonempty⟩) (List.cons_ne_nil _ _)

/-- A relative text that is normal, without empty parts or double dots, goes
down. -/
theorem components_of_normal (hNe : text ≠ []) (hRelative : isAbsolute text = false)
    (hDot : normalize text ≠ ['.'])
    (hParts : ∀ part ∈ (normalize text).splitOn '/', part ≠ [] ∧ part ≠ ['.', '.']) :
    components true text ≠ [] ∧ ['.', '.'] ∉ components true text := by
  have hPlain : ∀ part ∈ components true text, '/' ∉ part := by
    intro part hMem
    rcases components_kept true text part hMem with hName | ⟨_, rfl⟩
    · exact hName.plain
    · decide
  rw [normalize, if_neg hNe] at hDot hParts
  dsimp only at hDot hParts
  rw [hRelative, Bool.not_false] at hDot hParts
  by_cases hPath : joined (components true text) = []
  · rw [if_pos hPath, if_neg Bool.false_ne_true] at hDot hParts
    split at hParts
    · exact absurd rfl (hParts [] (by decide)).1
    · rename_i hTrailing
      rw [if_neg hTrailing] at hDot
      exact absurd rfl hDot
  · rw [if_neg hPath, if_neg Bool.false_ne_true] at hParts
    have hComponents : components true text ≠ [] := fun hNil => hPath (by rw [hNil]; rfl)
    refine ⟨hComponents, fun hMem => ?_⟩
    split at hParts
    · refine (hParts [] ?_).1 rfl
      rw [List.splitOn_append_cons_self, List.splitOn_nil]
      exact List.mem_append_right _ (List.mem_singleton_self _)
    · rw [joined_splitOn hPlain hComponents] at hParts
      exact (hParts _ hMem).2 rfl

/-- Names in a row are normal. -/
theorem normalize_joined {parts : List Text} (h : ∀ part ∈ parts, IsName part) (hNe : parts ≠ []) :
    normalize (joined parts) = joined parts := by
  have hPlain (part : Text) (hMem : part ∈ parts) : '/' ∉ part ∧ part ≠ [] :=
    ⟨(h part hMem).plain, (h part hMem).nonempty⟩
  have hText := joined_ne_nil hPlain hNe
  obtain ⟨hRelative, hLast⟩ := joined_ends hPlain hNe
  rw [normalize, if_neg hText]
  dsimp only
  rw [components_joined h hNe, if_neg hText, if_neg (by rw [hRelative]; exact Bool.false_ne_true),
    if_neg hLast]

/-- A relative path is appended to its base with one slash in between. -/
theorem join_name {base path : Text} (hBase : base ≠ []) (hLast : base.getLast? ≠ some '/')
    (hPath : isAbsolute path = false) : join base path = base ++ '/' :: path := by
  rw [join, if_neg (by rw [hPath]; exact Bool.false_ne_true), if_neg (by simp [hBase, hLast])]

/-! ### Resolving -/

/-- The leading slash of an absolute path adds no name. -/
theorem names_absolute {parts : List Text} (h : ∀ part ∈ parts, IsName part) :
    names ('/' :: joined parts) = parts := by
  have hNames := names_joined h
  rw [names] at hNames
  rw [names, show '/' :: joined parts = [] ++ '/' :: joined parts from rfl,
    List.splitOn_append_cons_self, List.filter_append, hNames]
  rfl

/-- Of a path that may not lead above its start, only names remain. -/
theorem components_names (text : Text) : ∀ part ∈ components false text, IsName part := by
  intro part hMem
  rcases components_kept false text part hMem with hName | ⟨hFalse, _⟩
  · exact hName
  · cases hFalse

/-- The absolute text a root stands for. -/
def base (workingDirectory root : Text) : Text :=
  if root = [] then workingDirectory
  else if isAbsolute root then root else workingDirectory ++ '/' :: root

/-- A relative text is resolved below the root that is given, and this one
below the working directory if need be. -/
theorem anchored_prepend {workingDirectory : Text}
    (hAbsolute : isAbsolute workingDirectory = true) (root text : Text) :
    anchored workingDirectory (prepend root (text, false)) =
      (base workingDirectory root ++ '/' :: text, true) := by
  unfold anchored prepend base
  cases root with
  | nil => simp [hAbsolute]
  | cons c root =>
      by_cases hRoot : isAbsolute (c :: root) = true
      · simp [hRoot]
      · simp [hRoot, hAbsolute]

theorem components_slash (text : Text) :
    components allowAboveRoot (text ++ ['/']) = components allowAboveRoot text := by
  rw [components, components, fold_append, fold_nil]

/-- The resolved root is absolute, and nothing but names stand in it. -/
theorem resolve_root {workingDirectory : Text} (hAbsolute : isAbsolute workingDirectory = true)
    (root : Text) : resolve workingDirectory [root] =
      '/' :: joined (components false (base workingDirectory root)) := by
  rw [resolve, List.foldr_cons, List.foldr_nil, anchored_prepend hAbsolute]
  dsimp only
  rw [if_pos rfl, Bool.not_true, components_slash]

/-- A relative text that goes down resolves below the root. -/
theorem names_resolve {workingDirectory root : Text}
    (hAbsolute : isAbsolute workingDirectory = true) (hNe : text ≠ [])
    (hRelative : isAbsolute text = false) (hBelow : ['.', '.'] ∉ components true text) :
    names (resolve workingDirectory [root, text]) =
      names (resolve workingDirectory [root]) ++ components true text := by
  have hFound : prepend text ([], false) = (text ++ ['/'], false) := by
    rw [prepend, if_neg (by simp [hNe]), hRelative]
  have hComponents : components false (base workingDirectory root ++ '/' :: (text ++ ['/'])) =
      components false (base workingDirectory root) ++ components true text := by
    rw [← components_slash text] at hBelow ⊢
    exact components_below hBelow
  have hResolved : resolve workingDirectory [root, text] =
      '/' :: joined (components false (base workingDirectory root) ++ components true text) := by
    rw [resolve, List.foldr_cons, List.foldr_cons, List.foldr_nil, hFound,
      anchored_prepend hAbsolute]
    dsimp only
    rw [if_pos rfl, Bool.not_true, hComponents]
  rw [hResolved, resolve_root hAbsolute, names_absolute (components_names _), names_absolute]
  rw [← hComponents]
  exact components_names _

end PosixPaths
