import Kiln.Walk

/-!
# The rest of a directive's line

Behind a directive nothing but blanks and a comment may stand on its line.
-/

namespace Kiln
namespace File

/-- The length of what stands at a position behind a directive, up to the last
character that is not a blank; none at the end of the line and before a comment. -/
def textBehind? (file : File) (p : Position) : Option Nat :=
  if file.atLineEnd p || file.startsWith p commentMark then none
  else some (trimmedLength (file.lineAt p).chars.toList - p.column)

end File
end Kiln
