import ApiDescription.Convert.Run

/-!
# The command line program

The files that the options name are gathered into a file tree, the run is computed on
it, and its end is carried out.
-/

namespace ApiDescription.Convert

/-- The places a path leads through, its end among them. -/
def stations (here : List String) : List String → List (List String)
  | [] => [here]
  | part :: rest =>
    here :: stations (if part = ".." then here.dropLast else here ++ [part]) rest

/-- An error of the operating system as it is reported. -/
def osErrorOf : IO.Error → OsError
  | .permissionDenied _ code details => ⟨code.toNat, details⟩
  | .hardwareFault code details => ⟨code.toNat, details⟩
  | error => ⟨5, toString error⟩

/-- What is refused at a place, if trying it has failed. -/
def faultOf {α : Type} (access : Access) (parts : List String) :
    Except IO.Error α → List ((Access × List String) × OsError)
  | .ok _ => []
  | .error error => [((access, parts), osErrorOf error)]

/-- Adds what stands at a place to a tree, if anything does, and what is refused there. Only
files are read; opening for reading and writing changes nothing. -/
def gatherPlace (tree : FileTree) (parts : List String) : IO FileTree := do
  let place := (← IO.currentDir) / (Path.mk 1 parts).toString
  match ← place.metadata.toBaseIO with
  | .error (.noFileOrDirectory ..) => return tree
  | .error error =>
    return { tree with faults := ((.search, parts.dropLast), osErrorOf error) :: tree.faults }
  | .ok data =>
    match data.type with
    | .dir => return { tree with directories := parts :: tree.directories }
    | .file =>
      let bytes ← (IO.FS.readBinFile place).toBaseIO
      let opened ← (IO.FS.Handle.mk place .readWrite).toBaseIO
      return { tree with
        files := (parts, (bytes.toOption.map ByteArray.toList).getD []) :: tree.files
        faults := faultOf .openToRead parts bytes ++ faultOf .openToWrite parts opened ++
          tree.faults }
    | _ => return { tree with devices := parts :: tree.devices }

/-- Adds all that a path leads through to a tree. -/
def gather (tree : FileTree) (path : Path) : IO FileTree :=
  (stations (if path.root = 0 then tree.home else []) path.parts).foldlM gatherPlace tree

/-- The paths a run may look at: the input, the configuration and the output. -/
def pathsOf (tree : FileTree) (options : Options) : List Path :=
  [options.file, options.config.getD (Settings.defaultFile tree)] ++ options.output.toList

/-- The tree with all that a run may look at. -/
def treeFor (request : Request) : IO FileTree := do
  let home := Path.ofString (toString (← IO.currentDir))
  let tree : FileTree := { home := home.parts }
  match request with
  | .convert options => (pathsOf tree options).foldlM gather tree
  | _ => return tree

/-- Writes the bytes of a file. -/
def writeFile (parts : List String) (bytes : List UInt8) : IO Unit :=
  IO.FS.writeBinFile (Path.mk 1 parts).toString ⟨bytes.toArray⟩

/-- Carries out the end of a run and answers its exit code. -/
def carryOut (ending : Ending) : IO UInt32 := do
  ending.emptied.forM (writeFile · [])
  match ending.outcome with
  | .broken _ => return 1
  | .finished report =>
    report.errors.forM IO.eprintln
    report.written.forM fun (parts, bytes) => writeFile parts bytes
    IO.print report.output
    return report.code.toUInt32

/-- Converts the file named by the arguments, with the libraries at hand. -/
def execute (libraries : Libraries) (arguments : List String) : IO UInt32 := do
  let tree ← treeFor (libraries.request arguments)
  let environment ← IO.getEnv Settings.levelVariable
  carryOut (perform libraries tree environment arguments)

end ApiDescription.Convert
