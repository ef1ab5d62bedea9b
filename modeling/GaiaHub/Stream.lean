import GaiaHub.Driver

/-!
# The monitored stream

`monitorStreamProgress(inputStream, progressCallback)` pipes the input through a pass-through
that adds each chunk's length to a running count and calls the callback with the count. The
chunk is passed on when the callback returns; when it throws, the pass-through is destroyed with
the error, nothing more is passed on, and the pipeline's promise rejects with that error.

The input is a finite list of chunks. For a callback that throws exactly when the count exceeds
a limit (`LimitCallback`), the chunks passed on are a prefix of the input whose total stays
within the limit (`monitorChunks_sum_le`), the pipeline fails exactly when the whole input
exceeds the limit (`monitorChunks_error_iff`), and otherwise the whole input is passed on
unchanged (`monitorChunks_of_none`).
-/

namespace GaiaHub

structure MonitorStreamResult where
  monitoredStream : Readable
  pipelinePromise : Except HubError Unit

/-- The pass-through's transform over the chunks still to come, from the count so far: the
chunks passed on and the error the stream was destroyed with. -/
def monitorChunks (progressCallback : Nat → Nat → Except HubError Unit) :
    Nat → List Chunk → List Chunk × Option HubError
  | _, [] => ([], none)
  | monitoredContentSize, chunk :: rest =>
    match progressCallback (monitoredContentSize + chunk.length) chunk.length with
    | .error e => ([], some e)
    | .ok () =>
      let next := monitorChunks progressCallback (monitoredContentSize + chunk.length) rest
      (chunk :: next.1, next.2)

/-- `monitorStreamProgress(inputStream, progressCallback)`. -/
def monitorStreamProgress (inputStream : List Chunk)
    (progressCallback : Nat → Nat → Except HubError Unit) : MonitorStreamResult :=
  let monitored := monitorChunks progressCallback 0 inputStream
  { monitoredStream := ⟨monitored.1, monitored.2⟩
    pipelinePromise := match monitored.2 with
      | some e => .error e
      | none => .ok () }

section Monitor

variable (cb : Nat → Nat → Except HubError Unit)

@[simp] theorem monitorChunks_nil (n : Nat) : monitorChunks cb n [] = ([], none) := rfl

theorem monitorChunks_cons (n : Nat) (c : Chunk) (cs : List Chunk) :
    monitorChunks cb n (c :: cs) =
      match cb (n + c.length) c.length with
      | .error e => ([], some e)
      | .ok () => (c :: (monitorChunks cb (n + c.length) cs).1,
          (monitorChunks cb (n + c.length) cs).2) := rfl

theorem monitorChunks_isPrefix (n : Nat) (cs : List Chunk) : (monitorChunks cb n cs).1 <+: cs := by
  induction cs generalizing n with
  | nil => simp
  | cons c cs ih =>
      rw [monitorChunks_cons]
      split
      · exact List.nil_prefix
      · exact List.prefix_cons_inj c |>.2 (ih _)

theorem monitorChunks_of_none (n : Nat) (cs : List Chunk) (h : (monitorChunks cb n cs).2 = none) :
    (monitorChunks cb n cs).1 = cs := by
  induction cs generalizing n with
  | nil => rfl
  | cons c cs ih =>
      rw [monitorChunks_cons] at h ⊢
      split at h
      · cases h
      · rename_i heq
        simp only [heq, ih _ h]

/-- The callback throws exactly when the running count exceeds `limit`. -/
def LimitCallback (limit : Nat) : Prop := ∀ total len, cb total len = .ok () ↔ total ≤ limit

variable {cb} {limit : Nat}

def chunksLength : List Chunk → Nat
  | [] => 0
  | c :: cs => c.length + chunksLength cs

@[simp] theorem chunksLength_nil : chunksLength [] = 0 := rfl

@[simp] theorem chunksLength_cons (c : Chunk) (cs : List Chunk) :
    chunksLength (c :: cs) = c.length + chunksLength cs := rfl

@[simp] theorem chunksLength_append (cs ds : List Chunk) :
    chunksLength (cs ++ ds) = chunksLength cs + chunksLength ds := by
  induction cs with
  | nil => simp
  | cons c cs ih => simp [ih, Nat.add_assoc]

theorem monitorChunks_sum_le (hcb : LimitCallback cb limit) (n : Nat) (cs : List Chunk)
    (hn : n ≤ limit) : n + chunksLength (monitorChunks cb n cs).1 ≤ limit := by
  induction cs generalizing n with
  | nil => simpa
  | cons c cs ih =>
      rw [monitorChunks_cons]
      split
      · simpa
      · rename_i heq
        have := ih _ ((hcb _ _).1 heq)
        simp only [chunksLength_cons]
        omega

/-- Under a limit callback, the stream is destroyed exactly when the count over the whole
input exceeds the limit. -/
theorem monitorChunks_error_iff (hcb : LimitCallback cb limit) (n : Nat) (cs : List Chunk)
    (hn : n ≤ limit) :
    (monitorChunks cb n cs).2.isSome ↔ limit < n + chunksLength cs := by
  induction cs generalizing n with
  | nil => simp; omega
  | cons c cs ih =>
      rw [monitorChunks_cons]
      split
      · rename_i e heq
        have : ¬ n + c.length ≤ limit := fun h => by simp [(hcb _ _).2 h] at heq
        simp only [Option.isSome_some, chunksLength_cons, true_iff]
        omega
      · rename_i heq
        rw [ih _ ((hcb _ _).1 heq), chunksLength_cons, Nat.add_assoc]

end Monitor

end GaiaHub
