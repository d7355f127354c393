import Floppy.Toml.Quoted

/-!
# TOML documents

A document is a sequence of lines: headers that open tables, and definitions of keys in the table that was
opened last. `parse?` gives the table of the whole document, none if anything is wrong with it.
-/
namespace Floppy.Toml

def skipComment (text : List Char) : List Char :=
  match text with
  | '#' :: rest => rest.dropWhile isPlain
  | _ => text

/-- The text after white space, ends of lines and comments. -/
def skipSpace (inComment : Bool) : List Char → List Char
  | [] => []
  | '\n' :: rest => skipSpace false rest
  | '\r' :: '\n' :: rest => skipSpace false rest
  | c :: rest =>
    if inComment then if isPlain c then skipSpace true rest else c :: rest
    else if isBlankChar c then skipSpace false rest
    else if c = '#' then skipSpace true rest
    else c :: rest

mutual

/-- The value at the front of a text, which may open so many brackets at once, and the rest of the text. -/
def value? : (fuel depth : Nat) → List Char → Option (Value × List Char)
  | 0, _, _ => none
  | fuel + 1, depth, text =>
    match text, depth with
    | '[' :: _, 0 => none
    | '\x7b' :: _, 0 => none
    | '[' :: rest, depth + 1 =>
      (elements? fuel depth [] (skipSpace false rest)).map fun (vs, r) => (.array vs, r)
    | '\x7b' :: rest, depth + 1 =>
      match skipBlank rest with
      | '\x7d' :: rest => some (.table .inline [], rest)
      | rest => (pairs? fuel depth [] rest).map fun (es, r) => (.table .inline es, r)
    | '"' :: _, _ => (string? fuel text).map fun (s, r) => (.string (String.ofList s), r)
    | '\'' :: _, _ => (string? fuel text).map fun (s, r) => (.string (String.ofList s), r)
    | _, _ => scalar? text

/-- The elements of an array up to its end, after those that were read, latest first. A comma may follow the
last one. -/
def elements? : (fuel depth : Nat) → List Value → List Char → Option (List Value × List Char)
  | 0, _, _, _ => none
  | fuel + 1, depth, elements, text =>
    match text with
    | ']' :: rest => some (elements.reverse, rest)
    | _ =>
      match value? fuel depth text with
      | none => none
      | some (v, rest) =>
        match skipSpace false rest with
        | ',' :: rest => elements? fuel depth (v :: elements) (skipSpace false rest)
        | ']' :: rest => some ((v :: elements).reverse, rest)
        | _ => none

/-- The definitions of an inline table up to its end. -/
def pairs? : (fuel depth : Nat) → Entries → List Char → Option (Entries × List Char)
  | 0, _, _, _ => none
  | fuel + 1, depth, entries, text =>
    match key? fuel text with
    | some (path, name, '=' :: rest) =>
      match value? fuel depth (skipBlank rest) with
      | none => none
      | some (v, rest) =>
        match entries.define name v path, skipBlank rest with
        | some entries, ',' :: rest => pairs? fuel depth entries rest
        | some entries, '\x7d' :: rest => some (entries, rest)
        | _, _ => none
    | _ => none

end

/-- The rest after a line on which nothing but a comment may follow. -/
def lineEnd? (text : List Char) : Option (List Char) :=
  match skipComment (skipBlank text) with
  | [] => some []
  | rest => newline? rest

/-- A document that is being read: its table, and the path of the table that is open. -/
structure Reading where
  root : Entries := []
  path : List String := []

/-- A header, after its opening bracket or brackets. -/
def header? (fuel : Nat) (reading : Reading) (isElement : Bool) (text : List Char) :
    Option (Reading × List Char) :=
  match key? fuel text with
  | none => none
  | some (path, name, rest) =>
    let closed := match isElement, rest with
      | false, ']' :: rest => some rest
      | true, ']' :: ']' :: rest => some rest
      | _, _ => none
    closed.bind fun rest =>
      (reading.root.follow (if isElement then Entries.openElement name else Entries.openTable name) path).map
        fun root => ({ root, path := path ++ [name] }, rest)

/-- The definition of a key in the open table. -/
def definition? (fuel : Nat) (reading : Reading) (text : List Char) : Option (Reading × List Char) :=
  match key? fuel text with
  | some (path, name, '=' :: rest) =>
    (value? fuel maxDepth (skipBlank rest)).bind fun (v, rest) =>
      (reading.root.follow (Entries.define name v path) reading.path).map
        fun root => ({ reading with root }, rest)
  | _ => none

/-- One header or definition. -/
def item? (fuel : Nat) (reading : Reading) (text : List Char) : Option (Reading × List Char) :=
  match text with
  | '[' :: '[' :: rest => header? fuel reading true rest
  | '[' :: rest => header? fuel reading false rest
  | _ => definition? fuel reading text

/-- Reads line by line. -/
def lines? : (fuel : Nat) → Reading → List Char → Option Entries
  | 0, _, _ => none
  | fuel + 1, reading, text =>
    match skipComment (skipBlank text) with
    | [] => some reading.root
    | rest =>
      match newline? rest with
      | some rest => lines? fuel reading rest
      | none =>
        (item? fuel reading (skipBlank text)).bind fun (reading, rest) =>
          (lineEnd? rest).bind fun rest => lines? fuel reading rest

/-- A byte order mark in front is ignored. For each character there is fuel to look for an element there and
to read its value. -/
def parse? (text : List Char) : Option Entries :=
  let text := match text with
    | '\ufeff' :: rest => rest
    | _ => text
  lines? (2 * text.length + 2) {} text

end Floppy.Toml
