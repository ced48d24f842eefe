/-!
Keys for new identities.

A key source hands out keys behind a prefix: counting from one, a fixed list in turn, or
32 lowercase hexadecimal digits. The hexadecimal keys are the issue count multiplied by an
odd constant modulo `2^128`, which is a bijection on 128-bit numbers, so a source never hands
out the same one twice.
-/
namespace Stowage

/-- An odd multiplier that spreads consecutive counts over the 128-bit range. -/
def keyMixer : Nat := 0x9e3779b97f4a7c15f39cc0605cedc835

/-- The 32 lowercase hexadecimal digits of a 128-bit number, zero-padded. -/
def hex128 (n : Nat) : String :=
  let digits := Nat.toDigits 16 (n % Nat.pow 2 128)
  String.ofList (List.replicate (32 - digits.length) '0' ++ digits)

/-- The hexadecimal key issued as number `n`. -/
def hexKey (n : Nat) : String := hex128 (n * keyMixer)

/-- How a key source makes keys. -/
inductive KeyScheme where
  /-- `1`, `2`, ... -/
  | counting
  /-- The keys of the list in turn, starting over at its end. -/
  | scripted (keys : List String)
  /-- 32 lowercase hexadecimal digits. -/
  | hex
  deriving Inhabited

/-- A key source: its scheme and how many keys it has handed out. -/
structure KeySource where
  scheme : KeyScheme
  issued : Nat
  deriving Inhabited

/-- A source that has handed out nothing yet. -/
def KeySource.start (scheme : KeyScheme) : KeySource := ⟨scheme, 0⟩

/-- The next key behind a prefix. An empty script counts instead. -/
def KeySource.next (k : KeySource) (pfx : String) : KeySource × String :=
  let n := k.issued + 1
  let key := match k.scheme with
    | .scripted keys@(_ :: _) => keys[k.issued % keys.length]?.getD ""
    | .hex => hexKey n
    | _ => toString n
  ({ k with issued := n }, pfx ++ key)

end Stowage
