/-
**Nine-bit words on a bus of bytes.**

Eight words of nine bits are one stream of 72 bits, most significant first, and that is nine bytes.

* `packGroup` and `unpackGroup`: one group to its bytes and back;
* `padding`: how many zero words complete a group;
* `tagByte` and `tagHalf`: the words that carry a byte, or the two bytes of a 16-bit element, with
  the selector in the ninth bit.
-/

import PanelLink.Packing.BigEndian
import PanelLink.Misuse
import PanelLink.Width

namespace PanelLink

namespace NineBit

def groupWords : Nat :=
  8

def groupBytes : Nat :=
  9

/-- The bit stream of nine-bit words, as a number. -/
def stream (words : List Nat) : Nat :=
  words.foldl (fun number word => number * 512 + word % 512) 0

/-- The nine bytes of a group of eight words. -/
def packGroup (words : List Nat) : List Nat :=
  bigEndian groupBytes (stream words)

/-- The low nine-bit words of a bit stream, first word leading. -/
def wordsOfStream : Nat → Nat → List Nat
  | 0, _ => []
  | count + 1, number => number >>> (9 * count) % 512 :: wordsOfStream count number

/-- The eight words of a group of nine bytes. -/
def unpackGroup (bytes : List Nat) : List Nat :=
  wordsOfStream groupWords (ofBigEndian bytes)

def pack : Repacking where
  sourceGroup := groupWords
  targetGroup := groupBytes
  convert := packGroup

def unpack : Repacking where
  sourceGroup := groupBytes
  targetGroup := groupWords
  convert := unpackGroup

/-- Packing with the check that there is no incomplete group. -/
def packInto (source destination : List Nat) : Except Misuse (Nat × List Nat) :=
  if source.length % groupWords = 0 then
    .ok ((pack.produced source destination.length).length, pack.into source destination)
  else .error .incompleteNineBitGroup

/-- Zero words that round a number of words up to whole groups. -/
def padding (count : Nat) : Nat :=
  (groupWords - count % groupWords) % groupWords

theorem add_padding_mod (count : Nat) : (count + padding count) % groupWords = 0 := by
  unfold padding groupWords
  omega

/-- The ninth bit that carries a selector. -/
def selectorBit : Selector → Nat
  | .command => 0
  | .data => 256

def tagByte (selector : Selector) (byte : Nat) : Nat :=
  byte ||| selectorBit selector

/-- The nine-bit words of a 16-bit element, high byte first. -/
def tagHalf (selector : Selector) (half : Nat) : List Nat :=
  (bigEndian 2 half).map (tagByte selector)

def byteTagging (selector : Selector) : Repacking where
  sourceGroup := 1
  targetGroup := 1
  convert := fun group => group.map (tagByte selector)

def halfTagging (selector : Selector) : Repacking where
  sourceGroup := 1
  targetGroup := 2
  convert := fun group => group.flatMap (tagHalf selector)

end NineBit

end PanelLink
