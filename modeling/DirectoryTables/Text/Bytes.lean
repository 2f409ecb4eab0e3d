/-!
# Text — Bytes

Lengths in UTF-8 bytes.  `takeBytes n` is the longest prefix made of whole characters that fits in
`n` bytes.
-/

namespace DirectoryTables.Text

/-- How many UTF-8 bytes the characters take. -/
def byteLength : List Char → Nat
  | [] => 0
  | c :: cs => c.utf8Size + byteLength cs

/-- The longest prefix of whole characters of at most `n` bytes. -/
def takeBytes : Nat → List Char → List Char
  | _, [] => []
  | n, c :: cs => if c.utf8Size ≤ n then c :: takeBytes (n - c.utf8Size) cs else []

theorem byteLength_takeBytes_le (n : Nat) (cs : List Char) : byteLength (takeBytes n cs) ≤ n := by
  induction cs generalizing n with
  | nil => simp [takeBytes, byteLength]
  | cons c cs ih =>
    have := ih (n - c.utf8Size)
    by_cases h : c.utf8Size ≤ n
    · simp only [takeBytes, h, if_true, byteLength]
      omega
    · simp [takeBytes, h, byteLength]

theorem takeBytes_prefix (n : Nat) (cs : List Char) : takeBytes n cs <+: cs := by
  induction cs generalizing n with
  | nil => simp [takeBytes]
  | cons c cs ih =>
    by_cases h : c.utf8Size ≤ n
    · simpa [takeBytes, h] using ih (n - c.utf8Size)
    · simp [takeBytes, h]

end DirectoryTables.Text
