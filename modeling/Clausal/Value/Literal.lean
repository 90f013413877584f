import Clausal.Error
import Clausal.Expr.Basic

/-!
# Values as literals

The constant that stands for a value in the text of a statement. Dates and timestamps are strings, and
an identifier is its number without the revision. Composite values have no literal.
-/

namespace Clausal.Value

def toLiteral : Value → Except Error Literal
  | null => .ok .null
  | bool b => .ok (.boolean b)
  | int i => .ok (.integer i)
  | float x => .ok (.float x)
  | text s => .ok (.string s)
  | bytes bs => .ok (.blob bs)
  | date d => .ok (.string d.text)
  | timestamp t => .ok (.string t.text)
  | key k => .ok (.integer k.id)
  | record _ => .error (.conversion (.named "record") .noLiteral)

end Clausal.Value
