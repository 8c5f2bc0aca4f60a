import Mathlib.Data.List.Basic

/-!
# Incremental frame readers

A frame reader looks at the front of a buffer and either extracts one frame,
asks for more data, or rejects. It is stable when later data never changes a
verdict. For a stable reader, draining a stream chunk by chunk gives what
draining it at once gives, whatever the chunks are; and when every frame has an
encoding the reader extracts, draining any prefix of a concatenation of encodings
yields the frames that are complete in it and leaves the rest.
-/

namespace Tckr

universe u v w

/-- An incremental reader of frames `φ` from symbols `β`, rejecting with `ε`. -/
structure FrameReader (β : Type u) (ε : Type v) (φ : Type w) where
  /-- Extract the first frame and what follows it; `none` asks for more data. -/
  next : List β → Except ε (Option (φ × List β))
  /-- An empty buffer asks for more data. -/
  next_nil : next [] = .ok none
  /-- Extracting a frame consumes data. -/
  next_length : ∀ {b f rest}, next b = .ok (some (f, rest)) → rest.length < b.length
  /-- More data never changes an extracted frame. -/
  next_append : ∀ {b f rest} (more : List β), next b = .ok (some (f, rest)) →
    next (b ++ more) = .ok (some (f, rest ++ more))
  /-- More data never changes a rejection. -/
  error_append : ∀ {b e} (more : List β), next b = .error e → next (b ++ more) = .error e

namespace FrameReader

variable {β : Type u} {ε : Type v} {φ : Type w} (r : FrameReader β ε φ)

/-- Extract frames until the reader asks for more data or rejects. The bound is
on the number of frames, and the length of the buffer always suffices. -/
def drainWithin : Nat → List β → List φ × Except ε (List β)
  | 0, b => ([], .ok b)
  | n + 1, b => match r.next b with
      | .error e => ([], .error e)
      | .ok none => ([], .ok b)
      | .ok (some (f, rest)) =>
          let out := drainWithin n rest
          (f :: out.1, out.2)

/-- The frames of a buffer, and the remainder or the rejection that ends them. -/
def drain (b : List β) : List φ × Except ε (List β) := r.drainWithin b.length b

/-- Any bound beyond the length of the buffer gives the same outcome. -/
theorem drainWithin_eq (n : Nat) (b : List β) (h : b.length ≤ n) :
    r.drainWithin n b = r.drain b := by
  induction n using Nat.strongRecOn generalizing b with
  | _ n ih =>
    cases n with
    | zero =>
        have hb : b.length = 0 := by omega
        rw [drain, hb]
    | succ n =>
      rw [drain]
      cases hb : b.length with
      | zero =>
          have hnil : b = [] := List.length_eq_zero_iff.mp hb
          simp only [hnil, drainWithin, r.next_nil]
      | succ k =>
        simp only [drainWithin]
        cases hn : r.next b with
        | error e => rfl
        | ok o =>
          cases o with
          | none => rfl
          | some p =>
              obtain ⟨f, rest⟩ := p
              have hlt := r.next_length hn
              have hleft := ih n (by omega) rest (by omega)
              have hright := ih k (by omega) rest (by omega)
              simp only [hleft, hright]

/-- A rejecting buffer ends at once. -/
theorem drain_error {b : List β} {e : ε} (h : r.next b = .error e) :
    r.drain b = ([], .error e) := by
  cases hb : b.length with
  | zero =>
      rw [List.length_eq_zero_iff.mp hb, r.next_nil] at h
      contradiction
  | succ k => rw [drain, hb, drainWithin, h]

/-- A buffer without a whole frame is its own remainder. -/
theorem drain_none {b : List β} (h : r.next b = .ok none) : r.drain b = ([], .ok b) := by
  cases hb : b.length with
  | zero => rw [drain, hb, drainWithin]
  | succ k => rw [drain, hb, drainWithin, h]

/-- An extracted frame comes first, and draining continues behind it. -/
theorem drain_some {b rest : List β} {f : φ} (h : r.next b = .ok (some (f, rest))) :
    r.drain b = (f :: (r.drain rest).1, (r.drain rest).2) := by
  have hlt := r.next_length h
  cases hb : b.length with
  | zero => omega
  | succ k =>
      have hrest := r.drainWithin_eq k rest (by omega)
      rw [drain, hb]
      simp only [drainWithin, h, hrest]

@[simp] theorem drain_nil : r.drain [] = ([], .ok []) := r.drain_none r.next_nil

/-- Draining by cases on the first verdict. -/
theorem drain_induction {P : List β → Prop}
    (herror : ∀ b e, r.next b = .error e → P b) (hnone : ∀ b, r.next b = .ok none → P b)
    (hsome : ∀ b f rest, r.next b = .ok (some (f, rest)) → P rest → P b) (b : List β) : P b := by
  induction hb : b.length using Nat.strongRecOn generalizing b with
  | _ n ih =>
    cases hn : r.next b with
    | error e => exact herror b e hn
    | ok o =>
      cases o with
      | none => exact hnone b hn
      | some p =>
          have hlt := r.next_length hn
          exact hsome b p.1 p.2 hn (ih p.2.length (by omega) p.2 rfl)

/-- The remainder of a drain asks for more data. -/
theorem next_remainder {b rest : List β} (h : (r.drain b).2 = .ok rest) :
    r.next rest = .ok none := by
  induction b using r.drain_induction with
  | herror b e hn =>
      rw [r.drain_error hn] at h
      contradiction
  | hnone b hn =>
      rw [r.drain_none hn, Except.ok.injEq] at h
      exact h ▸ hn
  | hsome b f more hn ih =>
      rw [r.drain_some hn] at h
      exact ih h

/-- Draining a longer stream resumes from the remainder of the shorter one. -/
theorem drain_append (b more : List β) :
    r.drain (b ++ more) = match r.drain b with
      | (fs, .error e) => (fs, .error e)
      | (fs, .ok rest) => (fs ++ (r.drain (rest ++ more)).1, (r.drain (rest ++ more)).2) := by
  induction b using r.drain_induction with
  | herror b e hn => simp only [r.drain_error hn, r.drain_error (r.error_append more hn)]
  | hnone b hn => simp only [r.drain_none hn, List.nil_append]
  | hsome b f rest hn ih =>
      simp only [r.drain_some hn, r.drain_some (r.next_append more hn), ih]
      obtain ⟨fs, o⟩ := r.drain rest
      cases o with
      | error e => rfl
      | ok rest' => rfl

/-- A stream that drains to frames and then as another does goes on to do so. -/
theorem drain_append_of_split {b c : List β} {fs : List φ}
    (h : r.drain b = (fs ++ (r.drain c).1, (r.drain c).2)) (more : List β) :
    r.drain (b ++ more) = (fs ++ (r.drain (c ++ more)).1, (r.drain (c ++ more)).2) := by
  rw [r.drain_append b, h, r.drain_append c]
  rcases r.drain c with ⟨gs, e | rest⟩
  · rfl
  · simp only [List.append_assoc]

/-! ## Consuming a stream in chunks -/

/-- Append each chunk to the unread remainder and drain, until a rejection. -/
def consume : List β → List (List β) → List φ × Except ε (List β)
  | rest, [] => ([], .ok rest)
  | rest, chunk :: chunks => match r.drain (rest ++ chunk) with
      | (fs, .error e) => (fs, .error e)
      | (fs, .ok rest') =>
          let out := consume rest' chunks
          (fs ++ out.1, out.2)

/-- From a remainder that holds no whole frame, every division into chunks gives
the frames and the outcome of the whole stream. -/
theorem consume_eq_drain {rest : List β} (h : r.next rest = .ok none)
    (chunks : List (List β)) :
    r.consume rest chunks = r.drain (rest ++ chunks.flatten) := by
  induction chunks generalizing rest with
  | nil => rw [consume, List.flatten_nil, List.append_nil, r.drain_none h]
  | cons chunk chunks ih =>
      rw [consume, List.flatten_cons, ← List.append_assoc, r.drain_append (rest ++ chunk)]
      cases hd : r.drain (rest ++ chunk) with
      | mk fs o =>
        cases o with
        | error e => rfl
        | ok rest' =>
            have hrest : r.next rest' = .ok none := r.next_remainder (by rw [hd])
            simp only [ih hrest]

/-- A stream delivered in chunks reads as the stream delivered at once. -/
theorem consume_flatten (chunks : List (List β)) :
    r.consume [] chunks = r.drain chunks.flatten :=
  r.consume_eq_drain r.next_nil chunks

/-! ## Streams of encoded frames -/

section Encoding

variable {r} {encode : φ → List β} {fs : List φ}

/-- A concatenation of encodings followed by anything drains to its frames and
then as what follows drains. -/
theorem drain_encode_append
    (hnext : ∀ f ∈ fs, ∀ rest, r.next (encode f ++ rest) = .ok (some (f, rest)))
    (more : List β) :
    r.drain (fs.flatMap encode ++ more) = (fs ++ (r.drain more).1, (r.drain more).2) := by
  induction fs with
  | nil => simp only [List.flatMap_nil, List.nil_append]
  | cons f fs ih =>
      have hf := hnext f (List.mem_cons_self ..)
      have hfs := ih fun g hg => hnext g (List.mem_cons_of_mem f hg)
      rw [List.flatMap_cons, List.append_assoc, r.drain_some (hf _), hfs, List.cons_append]

/-- Part of an encoding asks for more data. -/
theorem next_proper_prefix {f : φ} {b : List β}
    (hnext : ∀ rest, r.next (encode f ++ rest) = .ok (some (f, rest)))
    (hb : b <+: encode f) (hlt : b.length < (encode f).length) : r.next b = .ok none := by
  obtain ⟨more, hmore⟩ := hb
  have hwhole : r.next (b ++ more) = .ok (some (f, [])) := by
    simpa only [hmore, List.append_nil] using hnext []
  cases hn : r.next b with
  | error e =>
      rw [r.error_append more hn] at hwhole
      contradiction
  | ok o =>
    cases o with
    | none => rfl
    | some p =>
        rw [r.next_append more hn, Except.ok.injEq, Option.some.injEq, Prod.mk.injEq,
          List.append_eq_nil_iff] at hwhole
        rw [hwhole.2.2, List.append_nil] at hmore
        rw [hmore] at hlt
        exact absurd hlt (Nat.lt_irrefl _)

/-- A prefix of a concatenation of encodings is the encodings of the first frames
and part of the next one. -/
theorem prefix_flatMap_split {b : List β} (h : b <+: fs.flatMap encode) :
    ∃ done left part, fs = done ++ left ∧ b = done.flatMap encode ++ part ∧
      (part = [] ∨ ∃ f ∈ left.head?, part <+: encode f ∧ part.length < (encode f).length) := by
  induction fs generalizing b with
  | nil =>
      rw [List.flatMap_nil, List.prefix_nil] at h
      exact ⟨[], [], [], rfl, by rw [h]; rfl, Or.inl rfl⟩
  | cons f fs ih =>
      rw [List.flatMap_cons] at h
      by_cases hlt : b.length < (encode f).length
      · have hpre : b <+: encode f :=
          List.prefix_of_prefix_length_le h (List.prefix_append _ _) (Nat.le_of_lt hlt)
        exact ⟨[], f :: fs, b, rfl, rfl, Or.inr ⟨f, rfl, hpre, hlt⟩⟩
      · obtain ⟨more, rfl⟩ : encode f <+: b :=
          List.prefix_of_prefix_length_le (List.prefix_append _ _) h (by omega)
        rw [List.prefix_append_right_inj] at h
        obtain ⟨done, left, part, hfs, hb, hpart⟩ := ih h
        refine ⟨f :: done, left, part, ?_, ?_, hpart⟩
        · rw [hfs, List.cons_append]
        · rw [hb, List.flatMap_cons, List.append_assoc]

/-- A prefix of a concatenation of encodings drains to the frames complete in it. -/
theorem drain_prefix
    (hnext : ∀ f ∈ fs, ∀ rest, r.next (encode f ++ rest) = .ok (some (f, rest)))
    {b : List β} (h : b <+: fs.flatMap encode) :
    ∃ done left part, fs = done ++ left ∧ b = done.flatMap encode ++ part ∧
      r.drain b = (done, .ok part) := by
  obtain ⟨done, left, part, hfs, hb, hpart⟩ := prefix_flatMap_split h
  have hdone : ∀ f ∈ done, ∀ rest, r.next (encode f ++ rest) = .ok (some (f, rest)) :=
    fun f hf => hnext f (by rw [hfs]; exact List.mem_append_left _ hf)
  have hnone : r.next part = .ok none := by
    rcases hpart with rfl | ⟨f, hf, hpre, hlt⟩
    · exact r.next_nil
    · have hmem : f ∈ fs := by
        rw [hfs]
        exact List.mem_append_right _ (List.mem_of_head? hf)
      exact next_proper_prefix (hnext f hmem) hpre hlt
  refine ⟨done, left, part, hfs, hb, ?_⟩
  rw [hb, drain_encode_append hdone, r.drain_none hnone, List.append_nil]

end Encoding

end FrameReader

end Tckr
