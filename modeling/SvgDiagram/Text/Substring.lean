/-!
Where one text occurs in another.
-/

namespace SvgDiagram
namespace Text

/-- Whether the needle is a contiguous part of the text. The empty needle occurs in every text. -/
def occursIn (needle : List Char) : List Char → Bool
  | [] => needle.isEmpty
  | c :: cs => needle.isPrefixOf (c :: cs) || occursIn needle cs

/-- What follows the needle where the text starts with it. -/
def after? : List Char → List Char → Option (List Char)
  | [], cs => some cs
  | n :: ns, c :: cs => if n == c then after? ns cs else none
  | _ :: _, [] => none

end Text
end SvgDiagram
