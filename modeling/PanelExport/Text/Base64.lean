/-!
# Bytes as text

Bytes are written in groups of three, each as four characters of an alphabet of sixty-four. What is
missing of the last group is marked.

* `length_base64`: four characters for every group that is begun.
-/

namespace PanelExport

/-- The character for six bits. -/
def base64Char (n : Nat) : Char :=
  if n < 26 then Char.ofNat ('A'.toNat + n)
  else if n < 52 then Char.ofNat ('a'.toNat + (n - 26))
  else if n < 62 then Char.ofNat ('0'.toNat + (n - 52))
  else if n = 62 then '+'
  else '/'

/-- The four characters for twenty-four bits. -/
def base64Group (n : Nat) : List Char :=
  [base64Char (n / 262144), base64Char (n / 4096 % 64), base64Char (n / 64 % 64),
    base64Char (n % 64)]

/-- The bytes as text. -/
def base64 : List UInt8 → List Char
  | [] => []
  | [a] => (base64Group (a.toNat * 65536)).take 2 ++ ['=', '=']
  | [a, b] => (base64Group (a.toNat * 65536 + b.toNat * 256)).take 3 ++ ['=']
  | a :: b :: c :: bytes =>
    base64Group (a.toNat * 65536 + b.toNat * 256 + c.toNat) ++ base64 bytes

theorem length_base64 (bytes : List UInt8) :
    (base64 bytes).length = 4 * ((bytes.length + 2) / 3) := by
  fun_induction base64 bytes with
  | case1 => rfl
  | case2 => simp [base64Group]
  | case3 => simp [base64Group]
  | case4 a b c bytes ih =>
    simp only [List.length_append, ih, base64Group, List.length_cons, List.length_nil]
    omega

end PanelExport
