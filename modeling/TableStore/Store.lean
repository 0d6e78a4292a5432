import TableStore.Directory
import TableStore.Document

/-!
# Stores

Where documents are kept: a map in memory, or a directory with one file for each database.
-/
namespace TableStore

inductive Store where
  | memory (documents : NameMap String)
  | directory (d : Directory)

namespace Store

/-- The texts that are taken as documents, in the order of their names. -/
def documents : Store → List String
  | memory docs => docs.values
  | directory d => d.documents

/-- The databases of all documents that can be read. -/
def databases (s : Store) (reader : NumeralReader) : List Database :=
  s.documents.filterMap fun text => (Document.load text reader).toOption

def save : Store → Database → Except StorageError Store
  | memory docs, d => .ok (.memory (docs.insert d.name (Document.text d)))
  | directory dir, d => (dir.save d.name (Document.text d)).map .directory

def remove : Store → String → Except StorageError Store
  | memory docs, name => .ok (.memory (docs.erase name))
  | directory dir, name => (dir.remove name).map .directory

end Store

end TableStore
