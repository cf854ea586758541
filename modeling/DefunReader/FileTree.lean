import DefunReader.Command.Outcome

/-! File trees held in memory, and how a path is followed through them: name by name, each looked up in
the folder reached so far, so that of several faults of a path the first decides. -/
namespace DefunReader

inductive FileTree where
  | file (content : ByteArray)
  | folder (entries : List (String × FileTree))

namespace FileTree

/-- The names of a path. A slash at an end leaves an empty name there. -/
def names (path : String) : List String :=
  (path.toList.foldr (fun c parts => if c = '/' then [] :: parts else match parts with
    | [] => [[c]]
    | part :: parts => (c :: part) :: parts) [[]]).map String.ofList

/-- Follows names from a tree; `above` has the folders around it, innermost first. The outermost folder
is its own parent. -/
def follow (above : List FileTree) (here : FileTree) : List String → Except SystemError ByteArray
  | [] =>
    match here with
    | file content => .ok content
    | folder _ => .error .isADirectory
  | name :: rest =>
    match here with
    | file _ => .error .notADirectory
    | folder entries =>
      if name = "" ∨ name = "." then follow above here rest
      else if name = ".." then
        match above with
        | [] => follow [] here rest
        | parent :: outer => follow outer parent rest
      else if 255 < name.utf8ByteSize then .error .nameTooLong
      else match entries.lookup name with
        | none => .error .notFound
        | some entry => follow (here :: above) entry rest

def insert (content : ByteArray) : List String → List (String × FileTree) → List (String × FileTree)
  | [], entries => entries
  | [name], entries => (name, file content) :: entries
  | name :: rest, entries =>
    let inner := match entries.lookup name with
      | some (folder inner) => inner
      | _ => []
    (name, folder (insert content rest inner)) :: entries

def ofFiles (files : List (String × ByteArray)) : FileTree :=
  folder (files.foldl (fun entries named => insert named.2 (names named.1) entries) [])

def system (stdin : ByteArray) : FileTree :=
  folder (("dev", folder [("null", file .empty), ("stdin", file stdin)]) ::
    ["bin", "etc", "home", "lib", "proc", "root", "sys", "tmp", "usr", "var"].map fun name => (name, folder []))

end FileTree

/-- What a program finds that runs in a folder of these files. Around the folder nothing is known. -/
def Surroundings.ofFiles (files : List (String × ByteArray)) (stdin : ByteArray) : Surroundings where
  stdin := .ok stdin
  file path :=
    if path = "" then .error .notFound
    else if 4096 ≤ path.utf8ByteSize then .error .nameTooLong
    else if path.toList.head? = some '/' then FileTree.follow [] (.system stdin) (FileTree.names path)
    else FileTree.follow [.folder []] (.ofFiles files) (FileTree.names path)

end DefunReader
