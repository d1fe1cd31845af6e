import Typeahead.Text.Basic

/-!
# The size of a text in bytes

File names and paths are limited by the bytes of their UTF-8 form.
-/

namespace Typeahead

/-- The number of bytes of the UTF-8 form of a text. -/
def Text.byteSize (t : Text) : Nat := t.foldr (fun c n => c.utf8Size + n) 0

end Typeahead
