import Partitura.Files.FileTree

/-!
# Sources of plugins

The plugins of a directory are in it and in the directories right below it that are not hidden. One
is asked for by its path or by its name.
-/

namespace Partitura.Build

open Files

/-- The end of the name of a plugin file. -/
def pluginSuffix : String := ".plg"

/-- The plugins right in a directory. -/
def pluginsIn (t : FileTree) (cwd : Location) (dir : Pathname) : List Pathname :=
  match t.list cwd dir with
  | .ok names => (names.filter (Text.hasEnd · pluginSuffix)).map dir.child
  | .error _ => []

/-- The directories right below a directory that are not hidden. -/
def foldersIn (t : FileTree) (cwd : Location) (dir : Pathname) (names : List String) :
    List Pathname :=
  (names.filter (!Text.hasStart · ".")).map dir.child |>.filter fun p =>
    (t.list cwd p).toOption.isSome

/-- `find_plugin_sources`: the plugins of a directory, in the order of their paths. -/
def sources (t : FileTree) (cwd : Location) (dir : Pathname) :
    Except FileFault (List Pathname) := do
  let names ← t.list cwd dir
  let found := pluginsIn t cwd dir ++ (foldersIn t cwd dir names).flatMap (pluginsIn t cwd)
  return found.mergeSort Pathname.le

/-- Whether a word is a path and not a name. -/
def isPath (s : String) : Bool :=
  s.toList.contains '/' || s.toList.contains '\\' || Text.hasEnd s pluginSuffix

/-- The path of a plugin that is asked for; of several plugins of one name the last one counts. -/
def resolveOne (t : FileTree) (cwd : Location) (available : List Pathname) (s : String) :
    Except FileFault (Option Pathname) :=
  if isPath s then do
    let p := Pathname.ofString s
    return if (← t.find? cwd p).isSome then some p else none
  else .ok (available.reverse.find? (·.stem == s))

/-- `resolve_plugins`: the paths of the plugins that are asked for, and the words for which there is
none. No word asks for all. -/
def resolve (t : FileTree) (cwd : Location) (dir : Pathname) (words : List String) :
    Except FileFault (List Pathname × List String) := do
  let available ← sources t cwd dir
  if words.isEmpty then return (available, [])
  else
    let found ← words.mapM fun s => return (s, ← resolveOne t cwd available s)
    return (found.filterMap (·.2), (found.filter (·.2.isNone)).map (·.1))

end Partitura.Build
