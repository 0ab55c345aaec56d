import Retrace.Path.Basic

/-!
# Module names

The dotted name under which a driver script imports a source file.
-/

namespace Retrace

/-- The text without `suffix` at its end, when it ends so. -/
def Text.dropSuffix (suffix s : String) : String :=
  if suffix.toList.isSuffixOf s.toList then String.ofList (s.toList.take (s.toList.length - suffix.toList.length))
  else s

namespace Path

/-- The names among the components, as text. -/
def nameTexts (cs : List Component) : List String :=
  cs.filterMap fun
    | .name n => some (Utf8.lossy n)
    | _ => none

/-- The names from `root` down to `file` with dots between; for a file elsewhere its own name. One `.py` at the
end is left out. -/
def moduleName (file root : Path) : String :=
  Text.dropSuffix ".py" <|
    match file.stripPrefix? root with
    | some below => ".".intercalate (nameTexts below)
    | none => (file.fileName?.map Utf8.lossy).getD ""

end Path

end Retrace
