import FormattedOutput.PowerTable.Generated

/-!
# The tables as a source text

The tables are written out as constants of a source text, every token set off by blanks. A header
says where the text is from.
-/

namespace FormattedOutput.TableSource

open PowerTable

/-- The header of the text. -/
def header : String :=
  "// Generated by rv-printf-dev (`cargo run -p rv-printf-dev -- ryu/d2s_small_table.rs`,\n" ++
  "// then rustfmt). Do not edit by hand.\n"

/-- Eight hexadecimal digits with their marker. -/
def mask (n : Nat) : String :=
  let digits := Nat.toDigits 16 n
  "0x" ++ String.ofList (List.replicate (8 - digits.length) '0' ++ digits)

/-- Entries between brackets. -/
def list (entries : List String) : String :=
  "[" ++ " , ".intercalate entries ++ "]"

/-- A pair of words. -/
def pair (p : WordPair) : String :=
  "(" ++ toString p.low ++ " , " ++ toString p.high ++ ")"

/-- The entries of a table. -/
def entries : Entries → String
  | .numbers ns => list (ns.map toString)
  | .pairs ps => list (ps.map pair)
  | .masks ns => list (ns.map mask)

/-- The type of an entry. -/
def entryType : Entries → String
  | .numbers _ => "u64"
  | .pairs _ => "(u64 , u64)"
  | .masks _ => "u32"

/-- How the length of a table is written. The powers below the spacing have a name for theirs. -/
def lengthText : Entries → String
  | .numbers _ => "POW5_TABLE_SIZE"
  | e => toString e.size

/-- A constant with its type and value. -/
def constant (kind name type value : String) : String :=
  "pub " ++ kind ++ " " ++ name ++ " : " ++ type ++ " = " ++ value ++ " ;"

/-- The declaration of a table. -/
def declaration (table : Table) : String :=
  constant "static" table.name
    ("[" ++ entryType table.entries ++ " ; " ++ lengthText table.entries ++ "]")
    (entries table.entries)

/-- The whole text. -/
def text : String :=
  let constants :=
    [constant "const" "DOUBLE_POW5_INV_BITCOUNT" "i32" (toString storedBits),
      constant "const" "DOUBLE_POW5_BITCOUNT" "i32" (toString storedBits),
      constant "const" "POW5_TABLE_SIZE" "usize" (toString spacing)]
  header ++ "\n" ++ " ".intercalate (constants ++ computedTables.map declaration) ++ "\n"

end FormattedOutput.TableSource
