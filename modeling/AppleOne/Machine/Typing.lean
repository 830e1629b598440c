import AppleOne.Machine

/-!
Typing into a running machine. A key is handed over only while none waits to be read, so no key
replaces another one.
-/

namespace AppleOne.Machine

/-- Hands over the next key if none waits; the result is the keys still to come. -/
def offerKey (keys : List HostKey) (machine : Machine) : List HostKey × Machine :=
  if machine.board.pia.keyPending then (keys, machine)
  else
    match keys with
    | [] => ([], machine)
    | key :: rest => (rest, machine.handleKey key)

/-- Whether the machine waits for a key and there is none. -/
def idle (keys : List HostKey) (machine : Machine) : Bool :=
  keys.isEmpty && !machine.board.pia.keyPending

/-- One tick of typing: hands over a key, runs, and moves the clock. -/
def typingTick (pause : Duration) (keys : List HostKey) : Run (List HostKey) := do
  let keys ← modifyGet (offerKey keys)
  let _ ← tick
  advance pause
  return keys

/-- A tick of typing runs the machine the key was offered to. -/
theorem typingTick_offered (pause : Duration) (keys : List HostKey) (machine : Machine) :
    typingTick pause keys machine =
      (do
        let _ ← tick
        advance pause
        return (offerKey keys machine).1 : Run (List HostKey)) (offerKey keys machine).2 :=
  rfl

/-- Ticks until the machine was idle `idleTicks` times or `limit` ticks have run; the result is the
number of ticks. -/
def typeKeys (pause : Duration) (limit idleTicks : Nat) (keys : List HostKey) : Run Nat :=
  go limit idleTicks keys 0
where
  go : (fuel idleTicks : Nat) → List HostKey → (ticks : Nat) → Run Nat
    | 0, _, _, ticks => pure ticks
    | _ + 1, 0, _, ticks => pure ticks
    | fuel + 1, idleTicks + 1, keys, ticks => do
      let idle ← idle keys <$> get
      let keys ← typingTick pause keys
      go fuel (if idle then idleTicks else idleTicks + 1) keys (ticks + 1)

/-- A tick is idle or not by the machine it starts in. -/
theorem go_succ (pause : Duration) (fuel idleTicks : Nat) (keys : List HostKey) (ticks : Nat)
    (machine : Machine) :
    typeKeys.go pause (fuel + 1) (idleTicks + 1) keys ticks machine =
      (do
        let left ← typingTick pause keys
        typeKeys.go pause fuel (if idle keys machine then idleTicks else idleTicks + 1) left (ticks + 1) :
          Run Nat) machine :=
  rfl

end AppleOne.Machine
