import ChipEight.Layout

/-!
# Key bindings

The hexadecimal keypad is laid over the left four columns of a keyboard.

```text
|1|2|3|C|      |1|2|3|4|
|4|5|6|D|  on  |Q|W|E|R|
|7|8|9|E|      |A|S|D|F|
|A|0|B|F|      |Z|X|C|V|
```

Two more keys control the session itself.
-/

namespace ChipEight

/-- A key of the keyboard by its name. -/
structure HostKey where
  name : String
  deriving DecidableEq

/-- What a key of the keyboard stands for. -/
inductive Command
  /-- A key of the hexadecimal keypad. -/
  | key (key : UInt8)
  | restart
  | quit
  deriving DecidableEq

namespace HostKey

/-- The keys laid under the keypad. -/
def keypadLayout : List (HostKey × UInt8) :=
  [(⟨"Num1"⟩, 0x1), (⟨"Num2"⟩, 0x2), (⟨"Num3"⟩, 0x3), (⟨"Num4"⟩, 0xC),
    (⟨"Q"⟩, 0x4), (⟨"W"⟩, 0x5), (⟨"E"⟩, 0x6), (⟨"R"⟩, 0xD),
    (⟨"A"⟩, 0x7), (⟨"S"⟩, 0x8), (⟨"D"⟩, 0x9), (⟨"F"⟩, 0xE),
    (⟨"Z"⟩, 0xA), (⟨"X"⟩, 0x0), (⟨"C"⟩, 0xB), (⟨"V"⟩, 0xF)]

/-- What a key stands for, if anything. -/
def command? (key : HostKey) : Option Command :=
  if key.name = "Backspace" then
    some .restart
  else if key.name = "Escape" then
    some .quit
  else
    (keypadLayout.lookup key).map .key

end HostKey

end ChipEight
