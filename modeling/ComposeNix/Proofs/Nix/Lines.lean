import ComposeNix.Nix.Expr

/-!
# The lines of a layout

What a set holds is laid out in lines: every binding has lines of its own, and there is an empty
line between two bindings, or none.  So the layout of a set is made of the lines of its bindings
(`renderBindings_lines`, `renderBindings_gaps`), and those of a text or of a set under a path are
spelled out here.
-/

namespace ComposeNix.Nix

/-- The lines of a binding. -/
def bindingLines (depth : Nat) (b : Binding) : List Char :=
  indent depth ++ renderBinding depth b ++ ['\n']

theorem renderBindings_lines (depth : Nat) (bs : List Binding) :
    renderBindings depth false bs = bs.flatMap (bindingLines depth) := by
  induction bs with
  | nil => rfl
  | cons b bs ih =>
    rw [renderBindings_cons, ih, List.flatMap_cons, bindingLines]
    simp

/-- With gaps there is one empty line between two bindings, and none before the first or behind the
last. -/
theorem renderBindings_gaps (depth : Nat) (bs : List Binding) :
    renderBindings depth true bs = ['\n'].intercalate (bs.map (bindingLines depth)) := by
  induction bs with
  | nil => rfl
  | cons b bs ih =>
    rw [renderBindings_cons, ih, List.map_cons, bindingLines]
    cases bs with
    | nil => simp
    | cons b' bs => simp [List.intercalate]

theorem renderPath_singleton (a : Attr) : renderPath [a] = a.render := by
  simp [renderPath]

theorem renderPath_cons_cons (a b : Attr) (path : List Attr) :
    renderPath (a :: b :: path) = a.render ++ '.' :: renderPath (b :: path) := by
  simp [renderPath, List.intercalate]

theorem render_ofText (depth : Nat) (s : String) :
    (Expr.ofText s).render depth = quote s.toList := by
  rw [Expr.ofText, Expr.render_string, List.flatMap_singleton]
  rfl

theorem bindingLines_text (depth : Nat) (path : List Attr) (s : String) :
    bindingLines depth (path, .ofText s)
      = indent depth ++ renderPath path ++ " = ".toList ++ quote s.toList ++ ";\n".toList := by
  have hend : ";\n".toList = [';'] ++ ['\n'] := by decide
  rw [bindingLines, renderBinding_mk, render_ofText, hend]
  simp only [List.append_assoc]

theorem bindingLines_set (depth : Nat) (path : List Attr) (gaps : Bool) (bs : List Binding) :
    bindingLines depth (path, .set gaps bs)
      = indent depth ++ renderPath path ++ " = \x7b\n".toList
        ++ renderBindings (depth + 1) gaps bs ++ indent depth ++ "\x7d;\n".toList := by
  have hbegin : " = \x7b\n".toList = " = ".toList ++ "\x7b\n".toList := by decide
  have hend : "\x7d;\n".toList = ['}'] ++ [';'] ++ ['\n'] := by decide
  rw [bindingLines, renderBinding_mk, Expr.render_set, hbegin, hend]
  simp only [List.append_assoc]

theorem renderBlock_singleton (b : Binding) :
    renderBlock [b] = indent 1 ++ renderBinding 1 b := by
  simp [renderBlock]

end ComposeNix.Nix
