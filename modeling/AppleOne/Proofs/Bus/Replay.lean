import AppleOne.Bus.Memory

/-!
What a transaction does on every device at once. A transaction is replayed against a sequence of
answers to its reads; `OnEveryDevice.of_replay` carries over what holds for all answers to every
device, with side effects and failures.
-/

namespace AppleOne

variable {α β ε σ : Type}

namespace Access

/-- The bytes that the reads brought. -/
def answers : List Access → List UInt8
  | [] => []
  | .read _ value :: rest => value :: answers rest
  | .write .. :: rest => answers rest

/-- The byte that the read number `n` brought. -/
def answerAt (accesses : List Access) (n : Nat) : UInt8 := (answers accesses).getD n 0

theorem answers_append (first second : List Access) :
    answers (first ++ second) = answers first ++ answers second := by
  induction first with
  | nil => rfl
  | cons access rest ih => cases access <;> simp [answers, ih]

theorem answerAt_append_read (before after : List Access) (address : UInt16) (value : UInt8) :
    answerAt (before ++ .read address value :: after) (answers before).length = value := by
  simp [answerAt, answers_append, answers]

end Access

open Access (answers answerAt)

namespace Transaction

/-! ### Replaying -/

/-- Result and accesses, if the reads bring the bytes `answer n`, `answer (n + 1)` and so on. -/
def replay (answer : Nat → UInt8) : (n : Nat) → Transaction α → α × List Access
  | _, done result => (result, [])
  | n, read address next =>
    let rest := (next (answer n)).replay answer (n + 1)
    (rest.1, .read address (answer n) :: rest.2)
  | n, write address value next =>
    let rest := next.replay answer n
    (rest.1, .write address value :: rest.2)
  | n, note _ next => next.replay answer n

section

variable (answer : Nat → UInt8) (n : Nat)

@[simp] theorem replay_done (result : α) : (done result).replay answer n = (result, []) := rfl

@[simp] theorem replay_read (address : UInt16) (next : UInt8 → Transaction α) :
    (read address next).replay answer n =
      (((next (answer n)).replay answer (n + 1)).1,
        .read address (answer n) :: ((next (answer n)).replay answer (n + 1)).2) := rfl

@[simp] theorem replay_write (address : UInt16) (value : UInt8) (next : Transaction α) :
    (write address value next).replay answer n =
      ((next.replay answer n).1, .write address value :: (next.replay answer n).2) := rfl

@[simp] theorem replay_note (diagnostic : Log.Diagnostic) (next : Transaction α) :
    (note diagnostic next).replay answer n = next.replay answer n := rfl

/-- What follows a transaction reads on where that one stopped. -/
theorem replay_bind (t : Transaction α) (f : α → Transaction β) :
    (t >>= f).replay answer n =
      (((f (t.replay answer n).1).replay answer (n + (answers (t.replay answer n).2).length)).1,
        (t.replay answer n).2 ++
          ((f (t.replay answer n).1).replay answer (n + (answers (t.replay answer n).2).length)).2) := by
  induction t generalizing n with
  | done result => rfl
  | read address next ih =>
      simp only [read_bind, replay_read, ih, answers, List.length_cons, List.cons_append]
      rw [Nat.add_assoc n 1, Nat.add_comm 1]
  | write address value next ih => simp [ih, answers]
  | note diagnostic next ih => simp [ih]

theorem replay_congr (t : Transaction α) (answer' : Nat → UInt8)
    (h : ∀ k, k < (answers (t.replay answer n).2).length → answer' (n + k) = answer (n + k)) :
    t.replay answer' n = t.replay answer n := by
  induction t generalizing n with
  | done result => rfl
  | read address next ih =>
      have head : answer' n = answer n := h 0 (by simp [answers])
      have tail := ih (answer n) (n + 1) fun k hk => by
        have := h (k + 1) (by simpa [answers] using hk)
        rwa [Nat.add_comm k, ← Nat.add_assoc] at this
      simp only [replay_read, head, tail]
  | write address value next ih =>
      have tail := ih n fun k hk => h k (by simpa [answers] using hk)
      simp only [replay_write, tail]
  | note diagnostic next ih => exact ih n h

end

theorem answers_replay (answer : Nat → UInt8) (n k : Nat) (t : Transaction α)
    (h : k < (answers (t.replay answer n).2).length) :
    answerAt (t.replay answer n).2 k = answer (n + k) := by
  induction t generalizing n k with
  | done result => simp [answers] at h
  | read address next ih =>
      cases k with
      | zero => rfl
      | succ k =>
          have := ih (answer n) (n + 1) k (by simpa [answers] using h)
          rwa [Nat.add_assoc, Nat.add_comm 1] at this
  | write address value next ih => exact ih n k h
  | note diagnostic next ih => exact ih n k h

/-- A replay can be repeated from the bytes that its own reads brought. -/
theorem replay_answerAt (answer : Nat → UInt8) (t : Transaction α) :
    t.replay (answerAt (t.replay answer 0).2) 0 = t.replay answer 0 := by
  apply replay_congr
  intro k hk
  simpa using answers_replay answer 0 k t hk

end Transaction

/-! ### Watching a device -/

/-- A device with an observer in front of it, who writes down each access and passes it on. -/
structure Watched (σ : Type) where
  device : σ
  accesses : List Access

namespace Watched

def start (device : σ) : Watched σ := ⟨device, []⟩

instance [Device (EStateM ε σ)] : Device (EStateM ε (Watched σ)) where
  read address := fun ⟨device, accesses⟩ =>
    match (Device.read address : EStateM ε σ UInt8) device with
    | .ok value device => .ok value ⟨device, accesses ++ [.read address value]⟩
    | .error failure device => .error failure ⟨device, accesses⟩
  write address value := fun ⟨device, accesses⟩ =>
    match (Device.write address value : EStateM ε σ Unit) device with
    | .ok () device => .ok () ⟨device, accesses ++ [.write address value]⟩
    | .error failure device => .error failure ⟨device, accesses⟩
  note diagnostic := fun ⟨device, accesses⟩ =>
    match (Device.note diagnostic : EStateM ε σ Unit) device with
    | .ok () device => .ok () ⟨device, accesses⟩
    | .error failure device => .error failure ⟨device, accesses⟩

end Watched

namespace Transaction

section

variable [Device (EStateM ε σ)]

/-- The observer does not disturb: without the list of accesses it is a run on the device. -/
theorem perform_watched (t : Transaction α) (watched : Watched σ) :
    match (t.perform : EStateM ε (Watched σ) α) watched with
    | .ok result after => (t.perform : EStateM ε σ α) watched.device = .ok result after.device
    | .error failure after =>
      (t.perform : EStateM ε σ α) watched.device = .error failure after.device := by
  induction t generalizing watched with
  | done result => rfl
  | read address next ih =>
      cases h : (Device.read address : EStateM ε σ UInt8) watched.device with
      | ok value device =>
          have := ih value ⟨device, watched.accesses ++ [.read address value]⟩
          simpa [perform, bind, EStateM.bind, Device.read, h] using this
      | error failure device => simp [perform, bind, EStateM.bind, Device.read, h]
  | write address value next ih =>
      cases h : (Device.write address value : EStateM ε σ Unit) watched.device with
      | ok _ device =>
          have := ih ⟨device, watched.accesses ++ [.write address value]⟩
          simpa [perform, bind, EStateM.bind, Device.write, h] using this
      | error failure device => simp [perform, bind, EStateM.bind, Device.write, h]
  | note diagnostic next ih =>
      cases h : (Device.note diagnostic : EStateM ε σ Unit) watched.device with
      | ok _ device =>
          have := ih ⟨device, watched.accesses⟩
          simpa [perform, bind, EStateM.bind, Device.note, h] using this
      | error failure device => simp [perform, bind, EStateM.bind, Device.note, h]

end

/-- The outcome of performing a transaction after some accesses is one of its replays, or the
beginning of one. -/
def Explained (t : Transaction α) (before : List Access) : EStateM.Result ε (Watched σ) α → Prop
  | .ok result watched =>
    ∃ made, watched.accesses = before ++ made ∧
      t.replay (answerAt watched.accesses) (answers before).length = (result, made)
  | .error _ watched =>
    ∃ made result rest, watched.accesses = before ++ made ∧
      t.replay (answerAt watched.accesses) (answers before).length = (result, made ++ rest)

theorem Explained.read {address : UInt16} {next : UInt8 → Transaction α} {before : List Access}
    {value : UInt8} {outcome : EStateM.Result ε (Watched σ) α}
    (h : Explained (next value) (before ++ [.read address value]) outcome) :
    Explained (.read address next) before outcome := by
  have length : (answers (before ++ [.read address value])).length = (answers before).length + 1 := by
    simp [Access.answers_append, answers]
  cases outcome with
  | ok result watched =>
      obtain ⟨made, split, replayed⟩ := h
      rw [List.append_assoc, List.singleton_append] at split
      refine ⟨.read address value :: made, split, ?_⟩
      rw [length] at replayed
      rw [replay_read, split, Access.answerAt_append_read, ← split, replayed]
  | error failure watched =>
      obtain ⟨made, result, rest, split, replayed⟩ := h
      rw [List.append_assoc, List.singleton_append] at split
      refine ⟨.read address value :: made, result, rest, split, ?_⟩
      rw [length] at replayed
      rw [replay_read, split, Access.answerAt_append_read, ← split, replayed, List.cons_append]

theorem Explained.write {address : UInt16} {value : UInt8} {next : Transaction α}
    {before : List Access} {outcome : EStateM.Result ε (Watched σ) α}
    (h : Explained next (before ++ [.write address value]) outcome) :
    Explained (.write address value next) before outcome := by
  have length : (answers (before ++ [.write address value])).length = (answers before).length := by
    simp [Access.answers_append, answers]
  cases outcome with
  | ok result watched =>
      obtain ⟨made, split, replayed⟩ := h
      rw [List.append_assoc, List.singleton_append] at split
      rw [length] at replayed
      exact ⟨.write address value :: made, split, by rw [replay_write, replayed]⟩
  | error failure watched =>
      obtain ⟨made, result, rest, split, replayed⟩ := h
      rw [List.append_assoc, List.singleton_append] at split
      rw [length] at replayed
      exact ⟨.write address value :: made, result, rest, split,
        by rw [replay_write, replayed, List.cons_append]⟩

theorem Explained.note {diagnostic : Log.Diagnostic} {next : Transaction α} {before : List Access}
    {outcome : EStateM.Result ε (Watched σ) α} (h : Explained next before outcome) :
    Explained (.note diagnostic next) before outcome := by
  cases outcome <;> exact h

/-- A failing access explains itself: nothing was made since. -/
theorem Explained.failed (t : Transaction α) (failure : ε) (device : σ) (before : List Access) :
    Explained t before (.error failure ⟨device, before⟩) :=
  ⟨[], _, _, by simp, rfl⟩

theorem perform_explained [Device (EStateM ε σ)] (t : Transaction α) (device : σ)
    (before : List Access) :
    Explained t before ((t.perform : EStateM ε (Watched σ) α) ⟨device, before⟩) := by
  induction t generalizing device before with
  | done result => exact ⟨[], by simp, rfl⟩
  | read address next ih =>
      cases h : (Device.read address : EStateM ε σ UInt8) device with
      | ok value device' =>
          have : Explained (.read address next) before _ :=
            (ih value device' (before ++ [.read address value])).read
          simpa [perform, bind, EStateM.bind, Device.read, h] using this
      | error failure device' =>
          have := Explained.failed (.read address next) failure device' before
          simpa [perform, bind, EStateM.bind, Device.read, h] using this
  | write address value next ih =>
      cases h : (Device.write address value : EStateM ε σ Unit) device with
      | ok _ device' =>
          have := (ih device' (before ++ [.write address value])).write
          simpa [perform, bind, EStateM.bind, Device.write, h] using this
      | error failure device' =>
          have := Explained.failed (.write address value next) failure device' before
          simpa [perform, bind, EStateM.bind, Device.write, h] using this
  | note diagnostic next ih =>
      cases h : (Device.note diagnostic : EStateM ε σ Unit) device with
      | ok _ device' =>
          have : Explained (.note diagnostic next) before _ := (ih device' before).note
          simpa [perform, bind, EStateM.bind, Device.note, h] using this
      | error failure device' =>
          have := Explained.failed (.note diagnostic next) failure device' before
          simpa [perform, bind, EStateM.bind, Device.note, h] using this

/-! ### From replays to devices -/

/-- Whatever device performs the transaction, result and accesses are as `P` says. If an access
fails, those made before it begin some that are. -/
def OnEveryDevice (t : Transaction α) (P : α → List Access → Prop) : Prop :=
  ∀ (ε σ : Type) [Device (EStateM ε σ)] (device : σ),
    match (t.perform : EStateM ε (Watched σ) α) (.start device) with
    | .ok result watched => P result watched.accesses
    | .error _ watched => ∃ result rest, P result (watched.accesses ++ rest)

theorem OnEveryDevice.of_replay {t : Transaction α} {P : (Nat → UInt8) → α → List Access → Prop}
    (h : ∀ answer, P answer (t.replay answer 0).1 (t.replay answer 0).2) :
    t.OnEveryDevice fun result accesses => P (answerAt accesses) result accesses := by
  intro ε σ _ device
  have explained := perform_explained (ε := ε) t device []
  rw [Watched.start]
  generalize (t.perform : EStateM ε (Watched σ) α) ⟨device, []⟩ = outcome at explained ⊢
  cases outcome with
  | ok result watched =>
      obtain ⟨made, split, replayed⟩ := explained
      rw [List.nil_append] at split
      have := h (answerAt watched.accesses)
      rwa [show t.replay (answerAt watched.accesses) 0 = (result, watched.accesses) from
        split ▸ replayed] at this
  | error failure watched =>
      obtain ⟨made, result, rest, split, replayed⟩ := explained
      rw [List.nil_append] at split
      have replayed : t.replay (answerAt watched.accesses) 0 = (result, watched.accesses ++ rest) := by
        rw [split] at replayed ⊢
        exact replayed
      refine ⟨result, rest, ?_⟩
      have again := replay_answerAt (answerAt watched.accesses) t
      rw [replayed] at again
      have := h (answerAt (watched.accesses ++ rest))
      rwa [again] at this

/-- A run that succeeds on a device is one of the replays. -/
theorem exists_replay_of_perform [Device (EStateM ε σ)] {t : Transaction α} {device after : σ}
    {result : α} (h : (t.perform : EStateM ε σ α) device = .ok result after) :
    ∃ answer, (t.replay answer 0).1 = result := by
  have watched := perform_watched (ε := ε) t (.start device)
  have explained := perform_explained (ε := ε) t device []
  rw [Watched.start] at watched
  generalize (t.perform : EStateM ε (Watched σ) α) ⟨device, []⟩ = outcome at watched explained
  cases outcome with
  | ok result' watched' =>
      obtain ⟨made, -, replayed⟩ := explained
      have same : EStateM.Result.ok result after = .ok result' watched'.device := h.symm.trans watched
      cases same
      exact ⟨_, congrArg Prod.fst replayed⟩
  | error failure watched' => exact absurd (h.symm.trans watched) (by simp)

end Transaction

end AppleOne
