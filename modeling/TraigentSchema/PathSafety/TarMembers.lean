import TraigentSchema.Library.Traverse
import TraigentSchema.Library.Unicode

/-!
# The members of an archive

What the names and the link targets of an archive's members are held to, and the plan of the
regular files and directories to be made.  Everything is checked before anything is made.
Paths are lists of components from the root; below a directory without links, resolving one is
a matter of its components alone.
-/

namespace TraigentSchema.PathSafety

open TraigentSchema.Traverse
open TraigentSchema.Unicode

abbrev Path := List Text

inductive MemberType where
  | regular
  | directory
  | symbolicLink
  | hardLink
  /-- A device, a pipe or a type unknown to the library. -/
  | special
  deriving DecidableEq, Repr

structure TarMember where
  name : Text
  type : MemberType
  linkname : Text
  /-- What `extractfile` gives for a regular file. -/
  payload : Bytes
  deriving DecidableEq

inductive SpecialMemberPolicy where
  | reject
  | skip
  deriving DecidableEq, Repr

/-- The `ValueError`s, with what their messages name. -/
inductive Refusal where
  | path (description : String) (raw : Text)
  | escapes (name : Text)
  | linkTarget (name : Text)
  | linkEscapes (name : Text)
  | memberType (name : Text)
  | duplicate (name : Text)
  | nonDirectoryParent (name parentName : Text)
  | missingDirectory (path : Path)
  deriving DecidableEq

abbrev Approved (A : Type) := Except Refusal A

/-- A resolved destination. -/
structure Destination where
  path : Path
  resolved : text ".." ∉ path

/-! ## Paths -/

def slash : CodePoint := codePoint '/'

def backslash : CodePoint := 92

/-- The components of a `PurePosixPath`, without its root. -/
def posixParts (raw : Text) : Path :=
  (raw.splitOn slash).filter fun part => part ≠ [] ∧ part ≠ text "."

def isAbsolute (raw : Text) : Bool :=
  raw.head? == some slash

/-- `Path.resolve` where there are no links, on the components of an absolute path. -/
def resolve (path : Path) : Path :=
  path.foldl (fun front part => if part = text ".." then front.dropLast else front ++ [part]) []

section Checks

variable (isDriveLetter : CodePoint → Bool)

/-- The drive of a `PureWindowsPath` that starts with no separator.  Which characters name a
drive depends on the version of the library. -/
def hasDrive : Text → Bool
  | letter :: c :: _ => isDriveLetter letter && c == codePoint ':'
  | _ => false

/-- What is wrong with a member's name and with a link's target alike.  Without a backslash and
a root, a Windows path is absolute only with a drive and has the components of a POSIX path. -/
def isForeign (raw : Text) : Bool :=
  raw.isEmpty || raw.contains 0 || raw.contains backslash || isAbsolute raw ||
    hasDrive isDriveLetter raw

def safeTarRelativePath (raw : Text) (description : String) : Approved Path :=
  if isForeign isDriveLetter raw || raw == text "." || raw == text "./" ||
      (posixParts raw).contains (text "..") then
    .error (.path description raw)
  else .ok (posixParts raw)

def memberDestination (member : TarMember) (dest : Destination) : Approved (Path × Path) := do
  let relativePath ← safeTarRelativePath isDriveLetter member.name "member path"
  let memberPath := resolve (dest.path ++ relativePath)
  if memberPath = dest.path ∨ ¬dest.path <+: memberPath then .error (.escapes member.name)
  else return (relativePath, memberPath)

def validateTarLinkStaysWithin (member : TarMember) (memberPath : Path) (dest : Destination) :
    Approved Unit :=
  if isForeign isDriveLetter member.linkname then .error (.linkTarget member.name)
  else
    -- A hard link is resolved from the archive's root, a symbolic one from its parent.
    let linkBase := if member.type = .symbolicLink then memberPath.dropLast else dest.path
    let linkTarget := resolve (linkBase ++ posixParts member.linkname)
    if linkTarget ≠ dest.path ∧ ¬dest.path <+: linkTarget then
      .error (.linkEscapes member.name)
    else .ok ()

def isLink (member : TarMember) : Bool :=
  member.type == .symbolicLink || member.type == .hardLink

def validateTarMembersStayWithin (members : List TarMember) (dest : Destination) :
    Approved Unit :=
  forM members fun member => do
    let (_, memberPath) ← memberDestination isDriveLetter member dest
    if isLink member then validateTarLinkStaysWithin isDriveLetter member memberPath dest
    else return

/-! ## The plan -/

structure Plan where
  member : TarMember
  memberPath : Path
  relativePath : Path
  deriving DecidableEq

def TarMember.isFile (member : TarMember) : Bool :=
  member.type == .regular

def TarMember.isDir (member : TarMember) : Bool :=
  member.type == .directory

def TarMember.isPlanned (member : TarMember) : Bool :=
  member.isFile || member.isDir

/-- One round of `_plan_tar_members`; the plans made are also what is planned by destination. -/
def planStep (dest : Destination) (policy : SpecialMemberPolicy) (plans : List Plan)
    (member : TarMember) : Approved (List Plan) := do
  let (relativePath, memberPath) ← memberDestination isDriveLetter member dest
  if !member.isPlanned then
    if policy = .reject then .error (.memberType member.name) else return plans
  else if plans.any fun plan => plan.memberPath == memberPath then
    .error (.duplicate member.name)
  else return plans ++ [⟨member, memberPath, relativePath⟩]

def planTarMembers (members : List TarMember) (dest : Destination)
    (policy : SpecialMemberPolicy) : Approved (List Plan) :=
  members.foldlM (planStep isDriveLetter dest policy) []

/-- The loop over the parents of a member, up to the destination. -/
def checkParents (plans : List Plan) (dest : Destination) (name : Text) (parent : Path) :
    Approved Unit :=
  if parent = dest.path then .ok ()
  else match plans.find? fun plan => plan.memberPath == parent with
    | some plan =>
        if !plan.member.isDir then .error (.nonDirectoryParent name plan.member.name)
        else if _hroot : parent = [] then .ok ()
        else checkParents plans dest name parent.dropLast
    | none =>
        if _hroot : parent = [] then .ok ()
        else checkParents plans dest name parent.dropLast
termination_by parent.length
decreasing_by
  all_goals
    rw [List.length_dropLast]
    exact Nat.sub_lt (List.length_pos_of_ne_nil _hroot) Nat.one_pos

def rejectNonDirectoryParents (plans : List Plan) (dest : Destination) : Approved Unit :=
  forM plans fun plan => checkParents plans dest plan.member.name plan.memberPath.dropLast

def requireTarDirectories (plans : List Plan) (requiredPaths : List Text) : Approved Unit := do
  let required ← requiredPaths.mapM fun raw =>
    safeTarRelativePath isDriveLetter raw "required path"
  forM required fun requiredPath =>
    if plans.any fun plan => plan.relativePath == requiredPath && plan.member.isDir then
      .ok ()
    else .error (.missingDirectory requiredPath)

def prevalidateTarMembers (members : List TarMember) (dest : Destination)
    (policy : SpecialMemberPolicy) (requiredPaths : List Text) : Approved (List Plan) := do
  validateTarMembersStayWithin isDriveLetter members dest
  let plans ← planTarMembers isDriveLetter members dest policy
  rejectNonDirectoryParents plans dest
  requireTarDirectories isDriveLetter plans requiredPaths
  return plans

end Checks

end TraigentSchema.PathSafety
