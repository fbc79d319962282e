import Routes.Dispatch.Session
/-!
The table of a text, which can be a source or the path of a file with one.
-/
namespace Routes

/-- A text names a file if one is at it as a path; no path goes over several lines. -/
def FileStore.holdsFile (store : FileStore) (text : String) : Bool :=
  !text.toList.contains '\n' && (store.fileAt? text).isSome

/-- The table of the file that a text names, or else of the text itself. -/
def Table.load (store : FileStore) (text : String) (s : Settings) : Except LoadError Table :=
  if store.holdsFile text then ofFile store text s else ofSource text s

end Routes
