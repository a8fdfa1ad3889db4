/-!
# Order of texts

Texts are ordered by their characters, and lists of texts by the first text in which they differ.
-/

namespace FlowObserver
namespace Text

/-- Whether a list comes before another one or equals it; a list comes after its beginnings. -/
def listLe : List String → List String → Bool
  | [], _ => true
  | _ :: _, [] => false
  | a :: as, b :: bs => a < b || (a = b && listLe as bs)

end Text
end FlowObserver
