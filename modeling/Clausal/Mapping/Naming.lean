import Clausal.Schema.Entity
import Clausal.Text.Snake

/-!
# Naming columns

How the column of a field is named. A field that asks for a column gets it.
-/

namespace Clausal

structure Naming where
  columnName : Field → String

namespace Naming

def asIs : Naming := ⟨fun f => f.column.getD f.name⟩

def snakeCase : Naming := ⟨fun f => f.column.getD (Text.snake f.name)⟩

end Naming

end Clausal
