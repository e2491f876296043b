import OpenApi.Text.Lowercase
import OpenApi.Text.Replace
import OpenApi.Text.Utf8

/-
Charsets: how bytes are read as a text.

Bytes are always read, and what is no character in a charset becomes the replacement character.
A charset has many names; case and the signs between the parts of a name do not matter.  UTF-8 is
what is meant if nothing else is.
-/
namespace OpenApi.Text

inductive Charset where
  | utf8
  | ascii
  /-- Each byte is the code of its character. -/
  | latin1
  /-- The same, with other characters in the place of the second row of controls. -/
  | windows
  deriving DecidableEq, Repr

namespace Charset

/-- The parts of a name with one sign between each two. -/
def plainName (name : String) : String :=
  let signed := (lowerChars false name.toList).map fun c => if c.isAlphanum then c else '_'
  String.ofList (Text.join ['_'] ((Text.split '_' signed).filter (!·.isEmpty)))

def asciiNames : List String :=
  ["ascii", "us_ascii", "us", "646", "cp367", "ibm367", "csascii", "ansi_x3_4_1968",
    "ansi_x3_4_1986", "iso646_us", "iso_646_irv_1991", "iso_ir_6"]

def latin1Names : List String :=
  ["latin_1", "latin1", "latin", "l1", "8859", "iso8859", "iso8859_1", "iso_8859_1",
    "iso_8859_1_1987", "iso_ir_100", "cp819", "ibm819", "csisolatin1"]

def windowsNames : List String := ["cp1252", "windows_1252", "1252"]

/-- The charset with a name.  It is UTF-8 for all other names. -/
def ofName (name : String) : Charset :=
  let plain := plainName name
  if asciiNames.contains plain then .ascii
  else if latin1Names.contains plain then .latin1
  else if windowsNames.contains plain then .windows
  else .utf8

/-- The characters from 0x80 to 0x9F of the charset of Windows. -/
def windowsControls : List Nat :=
  [
   0x20AC, 0xFFFD, 0x201A, 0x192, 0x201E, 0x2026, 0x2020, 0x2021, 0x2C6, 0x2030, 0x160, 0x2039,
   0x152, 0xFFFD, 0x17D, 0xFFFD, 0xFFFD, 0x2018, 0x2019, 0x201C, 0x201D, 0x2022, 0x2013, 0x2014,
   0x2DC, 0x2122, 0x161, 0x203A, 0x153, 0xFFFD, 0x17E, 0x178]

def windowsChar (byte : UInt8) : Char :=
  if byte < 0x80 then Char.ofNat byte.toNat
  else Char.ofNat (windowsControls[byte.toNat - 0x80]?.getD byte.toNat)

def decode (bytes : List UInt8) : Charset → List Char
  | .utf8 => Utf8.decodeLossy bytes
  | .ascii => bytes.map fun byte => if byte < 0x80 then Char.ofNat byte.toNat else Utf8.replacement
  | .latin1 => bytes.map fun byte => Char.ofNat byte.toNat
  | .windows => bytes.map windowsChar

end Charset
end OpenApi.Text
