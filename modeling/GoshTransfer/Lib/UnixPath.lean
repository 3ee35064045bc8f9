import Mathlib.Data.List.Basic

set_option autoImplicit false

-- Paths as std::path reads them on Unix: only the slash separates, repeated
-- slashes and dots count once or not at all, and paths are compared by their
-- components.
namespace UnixPath

inductive Component where
  | rootDir
  | curDir
  | parentDir
  | normal (name : String)
deriving DecidableEq, Repr

abbrev Components := List Component

def component (part : List Char) : Option Component :=
  if part = [] ∨ part = ['.'] then none
  else if part = ['.', '.'] then some .parentDir
  else some (.normal (.ofList part))

-- A dot is kept only in front of a relative path.
def parse (path : String) : Components :=
  match path.toList.splitOnP (· == '/') with
  | [] => []
  | first :: rest =>
      (if first = [] ∧ rest ≠ [] then [.rootDir] else if first = ['.'] then [.curDir]
        else (component first).toList) ++ rest.filterMap component

def isAbsolute (path : Components) : Bool := path.head? = some .rootDir

-- Path::join, and PathBuf::push of a path.
def join (path more : Components) : Components :=
  if isAbsolute more then more else if path = [] then more else path ++ more.filter (· ≠ .curDir)

def startsWith (path base : Components) : Bool := base.isPrefixOf path

def stripPrefix (path base : Components) : Option Components :=
  if startsWith path base then some (path.drop base.length) else none

def parent (path : Components) : Option Components :=
  match path.getLast? with
  | none | some .rootDir => none
  | some _ => some path.dropLast

def fileName (path : Components) : Option String :=
  match path.getLast? with
  | some (.normal name) => some name
  | _ => none

-- A name that is a component of its own.
def Single (name : String) : Prop := name ≠ "" ∧ name ≠ "." ∧ name ≠ ".." ∧ '/' ∉ name.toList

theorem list_ne (name : String) (cs : List Char) (different : name ≠ .ofList cs) : name.toList ≠ cs := by
  intro same
  exact different (by rw [← same, String.ofList_toList])

theorem parse_single (name : String) (single : Single name) : parse name = [.normal name] := by
  obtain ⟨nonempty, notDot, notDots, whole⟩ := single
  have parts : name.toList.splitOnP (· == '/') = [name.toList] := by
    apply List.splitOnP_eq_singleton
    intro c member
    rw [beq_eq_false_iff_ne]
    rintro rfl
    exact whole member
  have some_ := list_ne name [] nonempty
  have dot := list_ne name ['.'] notDot
  have dots := list_ne name ['.', '.'] notDots
  simp [parse, parts, component, some_, dot, dots]

theorem join_single (path : Components) (name : String) (single : Single name) : join path
    (parse name) = path ++ [.normal name] := by
  rw [parse_single name single]
  by_cases empty : path = []
  · simp [join, isAbsolute, empty]
  · simp [join, isAbsolute, empty]

theorem fold_single (names : List String) (path : Components) (singles : ∀ name ∈ names, Single name) :
    names.foldl (fun path name => join path (parse name)) path = path ++ names.map .normal := by
  induction names generalizing path with
  | nil => simp
  | cons name rest ih =>
      have later : ∀ name ∈ rest, Single name :=
        fun other member => singles other (List.mem_cons_of_mem _ member)
      rw [List.foldl_cons, join_single path name (singles name List.mem_cons_self), ih _ later]
      simp

theorem join_normal (path : Components) (names : List String) : join path
    (names.map .normal) = path ++ names.map .normal := by
  have relative : isAbsolute (names.map .normal) = false := by cases names <;> simp [isAbsolute]
  have plain : (names.map Component.normal).filter (· ≠ .curDir) = names.map .normal := by
    rw [List.filter_eq_self]
    simp
  by_cases empty : path = []
  · simp [join, relative, empty]
  · simp only [join, relative, Bool.false_eq_true, if_false, if_neg empty, plain]

theorem starts_with_append (path more : Components) : startsWith (path ++ more) path = true := by
  simp [startsWith]

theorem strip_prefix_append (path more : Components) : stripPrefix (path ++ more) path = some more := by
  simp [stripPrefix, starts_with_append]

theorem parent_append (path : Components) (name : String) : parent (path ++ [.normal name]) = some path := by
  simp [parent]

theorem file_name_append (path : Components) (name : String) : fileName
    (path ++ [.normal name]) = some name := by
  simp [fileName]

end UnixPath
