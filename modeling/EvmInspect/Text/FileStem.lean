import EvmInspect.Text.Split

/-!
# File stems

The stem of a path is the name it ends in, without the extension. A path that ends in no
name, such as `/` or one whose last step goes up, has none.
-/

namespace EvmInspect.Text

/-- The steps of a path; slashes may be repeated, and a step to the same place counts
for nothing. -/
def pathSteps (path : List Char) : List (List Char) :=
  (splitOnChar '/' path).filter fun step => step != [] && step != ['.']

/-- A name without its extension, which starts at the last dot unless that is the first
character. -/
def withoutExtension (name : List Char) : List Char :=
  let (extension, before) := name.reverse.span (· != '.')
  match before with
  | _dot :: stem => if stem.isEmpty then name else stem.reverse
  | [] => extension.reverse

/-- The stem of the name that a path ends in. -/
def fileStem? (path : String) : Option String :=
  match (pathSteps path.toList).getLast? with
  | none => none
  | some ['.', '.'] => none
  | some name => some (String.ofList (withoutExtension name))

example : fileStem? "dir/a.tar.gz" = some "a.tar" := by decide
example : fileStem? ".hidden" = some ".hidden" := by decide
example : fileStem? "x/.." = none := by decide
example : fileStem? "a.json/./" = some "a" := by decide

end EvmInspect.Text
