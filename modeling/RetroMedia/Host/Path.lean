/-! Paths on the host. A path keeps the text it was written with: steps between slashes, of which
empty ones and single points lead nowhere. -/
namespace RetroMedia

/-- A path as the steps between its slashes. -/
structure HostPath where
  /-- Does the path begin at the root? -/
  absolute : Bool
  steps : List String
  deriving DecidableEq, Repr

namespace HostPath

def splitSteps (chars : List Char) : List String := (chars.splitOn '/').map String.ofList

def ofText (text : String) : HostPath :=
  match text.toList with
  | '/' :: rest => ⟨true, splitSteps rest⟩
  | chars => ⟨false, splitSteps chars⟩

def toText (path : HostPath) : String :=
  (if path.absolute then "/" else "") ++ String.intercalate "/" path.steps

/-- A step that leads nowhere. -/
def isIdle (step : String) : Bool := step.isEmpty || step == "."

/-- The steps up to the last one that leads somewhere. A path that begins with a single point keeps
it. -/
def trimIdle (absolute : Bool) (steps : List String) : List String :=
  match (steps.reverse.dropWhile isIdle).reverse with
  | [] => if !absolute && steps.head? == some "." then ["."] else []
  | kept => kept

/-- The name that a path ends in, unless it ends in a step upward or leads nowhere. -/
def fileName? (path : HostPath) : Option String :=
  match (trimIdle path.absolute path.steps).getLast? with
  | some step => if step == "." || step == ".." then none else some step
  | none => none

/-- The path without the name it ends in. -/
def parent (path : HostPath) : HostPath :=
  { path with steps := trimIdle path.absolute (trimIdle path.absolute path.steps).dropLast }

/-- A path inside a directory; an absolute one stands for itself. -/
def join (base : HostPath) (name : String) : HostPath :=
  let text := base.toText
  if name.startsWith "/" then ofText name
  else if text.isEmpty || text.endsWith "/" then ofText (text ++ name)
  else ofText (text ++ "/" ++ name)

theorem length_trimIdle_le (absolute : Bool) (steps : List String) :
    (trimIdle absolute steps).length ≤ steps.length := by
  have kept := (List.dropWhile_suffix isIdle (l := steps.reverse)).length_le
  rw [List.length_reverse, ← List.length_reverse] at kept
  unfold trimIdle
  cases shown : (steps.reverse.dropWhile isIdle).reverse with
  | nil =>
    cases steps with
    | nil => simp
    | cons step rest => dsimp only; split <;> simp
  | cons step rest => simpa [shown] using kept

theorem length_parent_lt {path : HostPath} {name : String} (named : path.fileName? = some name) :
    path.parent.steps.length < path.steps.length := by
  have outer := length_trimIdle_le path.absolute path.steps
  have inner := length_trimIdle_le path.absolute (trimIdle path.absolute path.steps).dropLast
  have some : trimIdle path.absolute path.steps ≠ [] := by
    intro none
    simp [fileName?, none] at named
  have := List.length_pos_iff.2 some
  simp only [parent, List.length_dropLast] at *
  omega

end HostPath
end RetroMedia
