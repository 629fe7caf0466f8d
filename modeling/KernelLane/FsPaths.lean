import KernelLane.Words

namespace KernelLane

/-!
# File-system errors and path splitting

Both stores of the file server resolve a path with the same `splitPath`: an
absolute path becomes its components, empty and `.` components vanish, and a
`..` component anywhere makes the path invalid.  Paths are byte strings.
-/

/-- The error values of the file-system packages. -/
inductive FsError where
  | noEntry
  | exists
  | notDir
  | isDir
  | noSpace
  | badName
  | notEmpt
  | range
  | kfsBadSB
  | beyondDevice
  | device
  deriving Repr, DecidableEq

/-- The path separator byte. -/
def slash : UInt8 := 47

/-- The component naming the directory itself. -/
def dotName : Bytes := [46]

/-- The component naming the parent directory. -/
def dotDotName : Bytes := [46, 46]

/-- The component loop of `splitPath`; nothing when it meets `..`. -/
def cleanParts : List Bytes → Option (List Bytes)
  | [] => some []
  | part :: rest =>
    if part = [] ∨ part = dotName then cleanParts rest
    else if part = dotDotName then none
    else (cleanParts rest).map (part :: ·)

/-- Clean an absolute path into its components. -/
def splitPath : Bytes → Except FsError (List Bytes)
  | [] => .error .badName
  | first :: rest =>
    if first ≠ slash then .error .badName
    else
      match cleanParts (rest.splitOn slash) with
      | none => .error .badName
      | some parts => .ok parts

theorem splitPath_single {name : Bytes} (noSlash : slash ∉ name) (nonempty : name ≠ [])
    (notDot : name ≠ dotName) (notDotDot : name ≠ dotDotName) :
    splitPath (slash :: name) = .ok [name] := by
  have oneField : name.splitOn slash = [name] := by
    apply List.splitOnP_eq_singleton
    intro byte member
    have notSlash : byte ≠ slash := fun same => noSlash (same ▸ member)
    simpa using notSlash
  simp [splitPath, oneField, cleanParts, nonempty, notDot, notDotDot]

example : splitPath [47, 97, 47, 46, 47, 47, 98] = .ok [[97], [98]] := by decide

end KernelLane
