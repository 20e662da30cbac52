import EntityDiagram.FileFault
import EntityDiagram.Seeding

namespace EntityDiagram

inductive DatabaseTask
  | execute (script : String)
  | seed (programs : List Program)
deriving DecidableEq

/-- The operations of a system, in the monad of their effects. A file is written whole or not at
all; a database task fails with a text of its own. -/
structure Host (m : Type → Type) where
  valueOf? : String → m (Option String)
  isPresent : String → m Bool
  readText : String → m (Except FileFault String)
  writeText : String → String → m (Except FileFault Unit)
  print : String → m Unit
  atDatabase : String → DatabaseTask → m (Except String Unit)

end EntityDiagram
