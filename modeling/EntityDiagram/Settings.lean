import EntityDiagram.Configuration.Document

namespace EntityDiagram

structure Settings where
  schema : String
  urlKey : String
  envFile : String
  sqlScript : String
deriving DecidableEq

def Settings.default : Settings :=
  ⟨"prisma/schema.prisma", "DATABASE_URL", ".env", "create_missing_tables.sql"⟩

structure Overrides where
  schema : Option String := none
  urlKey : Option String := none
  envFile : Option String := none
  sqlScript : Option String := none
deriving DecidableEq

namespace Overrides

def complete (o : Overrides) : Settings where
  schema := o.schema.getD Settings.default.schema
  urlKey := o.urlKey.getD Settings.default.urlKey
  envFile := o.envFile.getD Settings.default.envFile
  sqlScript := o.sqlScript.getD Settings.default.sqlScript

def setting? : Option Configuration.Node → Option (Option String)
  | none => some none
  | some (.text content) => some (some content)
  | some _ => none

/-- The settings of a section. A section is a table with a key for each setting, or an array of the
settings in their order; a date in its place sets nothing. -/
def readSection? (keys : List String) : Option Configuration.Node → Option (List (Option String))
  | none => some (keys.map fun _ => none)
  | some .moment => some (keys.map fun _ => none)
  | some (.table _ entries) => keys.mapM fun key => setting? (entries.lookup key)
  | some (.array items) => keys.zipIdx.mapM fun (_, i) => setting? items[i]?
  | some _ => none

def ofRoot? : Configuration.Node → Option Overrides
  | .table _ entries => do
    let diagram ← readSection? ["schema"] (entries.lookup "diagram")
    let database ← readSection? ["url_key", "env_file", "sql_script"] (entries.lookup "database")
    match diagram, database with
    | [schema], [urlKey, envFile, sqlScript] => return ⟨schema, urlKey, envFile, sqlScript⟩
    | _, _ => none
  | _ => none

def read? (text : String) : Option Overrides := Configuration.read? text >>= ofRoot?

end Overrides

end EntityDiagram
