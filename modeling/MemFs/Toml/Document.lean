import MemFs.Toml.Value

/-!
# Documents

A document is a sequence of sections: keys and their values under a header that says which table
they belong to. The first section has no header and belongs to the document itself.
-/

namespace MemFs.Toml

/-- Where the values of a section belong. -/
inductive Header where
  /-- They belong to this table. -/
  | table (path : List String) (name : String)
  /-- They belong to a new table at the end of this series. -/
  | element (path : List String) (name : String)

/-- A line of a document, or the lines of a value that takes up several. -/
inductive Line where
  | header (header : Header)
  | value (key : List String × String) (value : Datum)
  /-- Nothing is said, except perhaps in a comment. -/
  | blank

/-- A header between single or double brackets. -/
def header : Scan Header :=
  (do
    Scan.word ['[', '[']
    let (path, name) ← key
    Scan.word [']', ']']
    pure (.element path name)) <|>
  (do
    Scan.word ['[']
    let (path, name) ← key
    Scan.word [']']
    pure (.table path name))

def line : Scan Line := do
  blanks
  (Line.header <$> header <* restOfLine)
    <|> ((fun (key, value) => Line.value key value) <$> pair value <* restOfLine)
    <|> ((fun _ => Line.blank) <$> (comment *> (lineBreak <|> Scan.ending)))
    <|> ((fun _ => Line.blank) <$> lineBreak)

/-- All lines of a document. A byte order mark before the first one does not count. -/
def lines : Scan (List Line) := do
  let _ ← Scan.option (Scan.char '\uFEFF')
  let lines ← Scan.many line
  blanks
  Scan.ending
  pure lines

/-- The values up to the next header, and the lines from it on. -/
def leadingValues : List Line → List ((List String × String) × Datum) × List Line
  | .value key value :: rest =>
      let (values, others) := leadingValues rest
      ((key, value) :: values, others)
  | .blank :: rest => leadingValues rest
  | others => ([], others)

/-- The document with one more section. A table gets a header only once, and only if it was
mentioned in headers before; a series may not also be a table or a value. -/
def addSection (document : Table) (header : Header)
    (values : List ((List String × String) × Datum)) : Option Table :=
  match header with
  | .table path name =>
      let fill (parent : Table) : Option Table := do
        let start ←
          match parent.find? name with
          | none => some .empty
          | some (.table table) =>
              if table.isImplicit && !table.isDotted then some table.headed else none
          | some _ => none
        let filled ← start.addValues values
        pure (parent.put name (.table filled))
      document.descend false fill path
  | .element path name =>
      let append (parent : Table) : Option Table := do
        let before ←
          match parent.find? name with
          | none => some []
          | some (.series tables) => some tables
          | some _ => none
        let filled ← Table.empty.addValues values
        pure (parent.put name (.series (before ++ [filled])))
      document.descend false append path

/-- The document with the sections that these lines consist of, at most this many. -/
def addLines : (sections : Nat) → Table → List Line → Option Table
  | sections + 1, document, .header header :: rest => do
      let (values, others) := leadingValues rest
      let document ← addSection document header values
      addLines sections document others
  | _, document, _ => some document

/-- The table that a document amounts to. -/
def Table.ofLines (lines : List Line) : Option Table := do
  let (values, others) := leadingValues lines
  let document ← Table.empty.addValues values
  addLines others.length document others

/-- The record that a document describes, or nothing if the text is not a document. -/
def parse (text : String) : Option Datum := do
  let (lines, _) ← lines text.toList
  let document ← Table.ofLines lines
  pure document.toDatum

end MemFs.Toml
