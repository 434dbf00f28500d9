/-!
# Things on one line

For diagnostics a thing is shown on one line: its kind, and in braces what it
holds, each by its name. A thing that holds more than it shows ends with two
dots.
-/

namespace Wirepool

/-- **A thing on one line.** -/
def shape (kind : String) (held : List (String × String)) (more : Bool := false) : String :=
  let named := held.map fun (name, shown) => name ++ ": " ++ shown
  kind ++ " \x7b " ++ ", ".intercalate (if more then named ++ [".."] else named) ++ " \x7d"

end Wirepool
