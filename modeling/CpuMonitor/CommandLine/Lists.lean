import CpuMonitor.Text.Blank

/-!
# Lists in one text

* `splitList` : the items of a text between commas, without the blanks around them; blank items are left out.
* `joinList` : items in one text, as the header shows them.
-/

set_option autoImplicit false

namespace CpuMonitor.CommandLine

/-- The items of a text between commas. -/
def splitList (s : String) : List String :=
  (((s.toList.splitOn ',').map Text.trim).filter fun item => !item.isEmpty).map String.ofList

/-- The items with commas between them, or a word for none. -/
def joinList (items : List String) : String := if items.isEmpty then "(none)" else ", ".intercalate items

end CpuMonitor.CommandLine
