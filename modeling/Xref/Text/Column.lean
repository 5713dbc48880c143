/-!
# Columns

Text set in a column of a given width, counted in characters. Text that is too wide stays whole.
-/

namespace Xref.Text

def blanks (n : Nat) : String := String.ofList (List.replicate n ' ')

def alignLeft (width : Nat) (text : String) : String := text ++ blanks (width - text.length)

def alignRight (width : Nat) (text : String) : String := blanks (width - text.length) ++ text

end Xref.Text
