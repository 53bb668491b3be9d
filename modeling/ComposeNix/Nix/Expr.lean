import ComposeNix.Nix.Text

/-!
# Nix expressions and their layout

The expressions that a generated module is made of, and how each is laid out.  Braces
and brackets that span lines put their contents two columns further in; the text of a
string is never touched.

Layout depends on nothing but the expression and the depth at which it stands, so a
block is laid out once and then only ever placed.
-/

namespace ComposeNix.Nix

/-- A piece of a string. -/
inductive Piece
  /-- Text that is taken literally. -/
  | text (letters : List Char)
  /-- The value of an expression, here always a path of names. -/
  | hole (path : String)
  deriving DecidableEq, Repr

/-- One step of an attribute path. -/
inductive Attr
  /-- A word of the language of modules. -/
  | word (name : String)
  /-- A name that is always quoted. -/
  | quoted (name : String)
  /-- A name that is quoted where it has to be. -/
  | named (name : String)
  deriving DecidableEq, Repr

/-- An expression. -/
inductive Expr
  | string (pieces : List Piece)
  /-- A name of the language of modules, or a constant. -/
  | word (name : String)
  /-- A setting with priority 90, so that it wins over the module's own. -/
  | override (value : Expr)
  /-- A list on one line. -/
  | row (items : List Expr)
  /-- A list with a line for every item. -/
  | column (items : List Expr)
  /-- A set with a line for every binding, and an empty one between them if `gaps`. -/
  | set (gaps : Bool) (bindings : List (List Attr × Expr))

/-- A set, an expression and its path: what stands on the left and right of `=`. -/
abbrev Binding := List Attr × Expr

namespace Expr

/-- A string without holes. -/
def ofText (s : String) : Expr := .string [.text s.toList]

/-- A column of strings. -/
def texts (items : List String) : Expr := .column (items.map ofText)

end Expr

/-! ## Layout -/

/-- Two columns for every step of depth. -/
def indent (depth : Nat) : List Char := List.replicate (2 * depth) ' '

/-- A piece between the quotes of its string. -/
def Piece.render : Piece → List Char
  | .text cs => escape cs
  | .hole path => "$\x7b".toList ++ path.toList ++ ['}']

/-- A step of a path. -/
def Attr.render : Attr → List Char
  | .word name => name.toList
  | .quoted name => quote name.toList
  | .named name => attributeName name.toList

/-- The steps of a path with a dot between them. -/
def renderPath (path : List Attr) : List Char := ['.'].intercalate (path.map Attr.render)

mutual

/-- An expression whose lines stand at this depth. -/
def Expr.render (depth : Nat) : Expr → List Char
  | .string pieces => '"' :: pieces.flatMap Piece.render ++ ['"']
  | .word name => name.toList
  | .override value => "lib.mkOverride 90 ".toList ++ value.render depth
  | .row items => '[' :: renderRow depth items ++ " ]".toList
  | .column items => "[\n".toList ++ renderColumn (depth + 1) items ++ indent depth ++ [']']
  | .set gaps bindings =>
    "\x7b\n".toList ++ renderBindings (depth + 1) gaps bindings ++ indent depth ++ ['}']
termination_by structural e => e

/-- Items side by side, each behind a space. -/
def renderRow (depth : Nat) : List Expr → List Char
  | [] => []
  | e :: es => ' ' :: e.render depth ++ renderRow depth es
termination_by structural es => es

/-- Items below each other. -/
def renderColumn (depth : Nat) : List Expr → List Char
  | [] => []
  | e :: es => indent depth ++ e.render depth ++ '\n' :: renderColumn depth es
termination_by structural es => es

/-- Bindings below each other. -/
def renderBindings (depth : Nat) (gaps : Bool) : List (List Attr × Expr) → List Char
  | [] => []
  | b :: bs =>
    indent depth ++ renderBinding depth b ++ '\n'
      :: (if gaps && !bs.isEmpty then ['\n'] else []) ++ renderBindings depth gaps bs
termination_by structural bs => bs

/-- A path, an equals sign, the expression and a semicolon. -/
def renderBinding (depth : Nat) : List Attr × Expr → List Char
  | (path, value) => renderPath path ++ " = ".toList ++ value.render depth ++ [';']
termination_by structural b => b

end

/-! ### One step of the layout -/

theorem Expr.render_string (depth : Nat) (pieces : List Piece) :
    (Expr.string pieces).render depth = '"' :: pieces.flatMap Piece.render ++ ['"'] := rfl

theorem Expr.render_word (depth : Nat) (name : String) :
    (Expr.word name).render depth = name.toList := rfl

theorem Expr.render_override (depth : Nat) (value : Expr) :
    (Expr.override value).render depth
      = "lib.mkOverride 90 ".toList ++ value.render depth := rfl

theorem Expr.render_row (depth : Nat) (items : List Expr) :
    (Expr.row items).render depth = '[' :: renderRow depth items ++ " ]".toList := rfl

theorem Expr.render_column (depth : Nat) (items : List Expr) :
    (Expr.column items).render depth
      = "[\n".toList ++ renderColumn (depth + 1) items ++ indent depth ++ [']'] := rfl

theorem Expr.render_set (depth : Nat) (gaps : Bool) (bindings : List Binding) :
    (Expr.set gaps bindings).render depth
      = "\x7b\n".toList ++ renderBindings (depth + 1) gaps bindings ++ indent depth
        ++ ['}'] := rfl

theorem renderRow_nil (depth : Nat) : renderRow depth [] = [] := rfl

theorem renderRow_cons (depth : Nat) (e : Expr) (es : List Expr) :
    renderRow depth (e :: es) = ' ' :: e.render depth ++ renderRow depth es := rfl

theorem renderColumn_nil (depth : Nat) : renderColumn depth [] = [] := rfl

theorem renderColumn_cons (depth : Nat) (e : Expr) (es : List Expr) :
    renderColumn depth (e :: es)
      = indent depth ++ e.render depth ++ '\n' :: renderColumn depth es := rfl

theorem renderBindings_nil (depth : Nat) (gaps : Bool) : renderBindings depth gaps [] = [] := rfl

theorem renderBindings_cons (depth : Nat) (gaps : Bool) (b : Binding) (bs : List Binding) :
    renderBindings depth gaps (b :: bs)
      = indent depth ++ renderBinding depth b ++ '\n'
        :: (if gaps && !bs.isEmpty then ['\n'] else []) ++ renderBindings depth gaps bs := rfl

theorem renderBinding_mk (depth : Nat) (path : List Attr) (value : Expr) :
    renderBinding depth (path, value)
      = renderPath path ++ " = ".toList ++ value.render depth ++ [';'] := rfl

/-- The bindings that make up one block of a module, which stand at depth one. -/
def renderBlock (bindings : List Binding) : List Char :=
  ['\n'].intercalate (bindings.map fun b => indent 1 ++ renderBinding 1 b)

end ComposeNix.Nix
