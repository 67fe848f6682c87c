import LiveDiagram.Log.Tree

namespace LiveDiagram

/-- The name of the log file. -/
def logFileName : String := "textdiagram_latest.log"

/-- The path of the log file in a folder. -/
def logFilePath (folder : String) : String :=
  let slash := if folder.toList.getLast?.all (· == '/') then "" else "/"
  folder ++ slash ++ logFileName

/-- Opens the log in a folder, which is made with the folders around it, and
    says whether that went well. It can fail because of what is there already, a
    file where a folder is needed or a folder where the file is, or because of
    the path. The folders that were made stay in any case. -/
def openLog (t : FileTree) (folder : String) : FileTree × Bool :=
  match t.makeFolders folder with
  | (t, false) => (t, false)
  | (t, true) =>
    match t.makeFile? (logFilePath folder) with
    | none => (t, false)
    | some t => (t, true)

end LiveDiagram
