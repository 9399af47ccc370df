/-
Text of at least a given width.
-/

namespace SharedAdc.Text

/-- Fills `s` up on the left to at least `width` characters. -/
def padLeft (width : Nat) (fill : Char) (s : String) : String :=
  String.ofList (List.replicate (width - s.length) fill) ++ s

end SharedAdc.Text
