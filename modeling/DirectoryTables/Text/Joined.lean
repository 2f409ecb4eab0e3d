/-!
# Text — Joined

Texts written one after another with a comma and a space between them.
-/

namespace DirectoryTables.Text

/-- The texts with a comma and a space between neighbours. -/
def commaJoined : List String → String
  | [] => ""
  | [s] => s
  | s :: t :: r => s ++ ", " ++ commaJoined (t :: r)

end DirectoryTables.Text
