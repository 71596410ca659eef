/-!
# TypeBridge — line ends

Files end their lines in one of three ways, and everything that counts lines
wants one. `unifyNewlines` makes every line end a line feed, and leaves no
carriage return behind.
-/

namespace TypeBridge

namespace Text

/-- Every line end as a line feed: a carriage return counts as one, alone or
with the line feed after it. -/
def unifyNewlines : List Char → List Char
  | [] => []
  | '\r' :: '\n' :: rest => '\n' :: unifyNewlines rest
  | '\r' :: rest => '\n' :: unifyNewlines rest
  | c :: rest => c :: unifyNewlines rest

theorem cr_notMem_unifyNewlines (text : List Char) : '\r' ∉ unifyNewlines text := by
  fun_induction unifyNewlines text with
  | case1 => simp
  | case2 rest ih => simpa using ih
  | case3 rest _ ih => simpa using ih
  | case4 c rest _ hc ih => simpa [ih] using fun h => hc h.symm

end Text

end TypeBridge
