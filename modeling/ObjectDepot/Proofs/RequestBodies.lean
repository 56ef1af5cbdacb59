import ObjectDepot.Service.RequestBody

/-! A body counts for its bytes up to the first read error, or up to its end, and not for the chunks
they came in. A read error only shows when the reader gets that far, so a body that is too large is
refused as such whatever follows. -/

namespace ObjectDepot

namespace RequestBody

/-- The bytes before the first read error, or all of them if there is none. -/
def leading : RequestBody → List UInt8
  | [] => []
  | .bytes bytes :: rest => bytes ++ leading rest
  | .readError _ :: _ => []

def firstError? : RequestBody → Option String
  | [] => none
  | .bytes _ :: rest => firstError? rest
  | .readError message :: _ => some message

theorem leading_append_bytes (chunks : List (List UInt8)) (ending : RequestBody) :
    leading (chunks.map .bytes ++ ending) = chunks.flatten ++ ending.leading := by
  induction chunks with
  | nil => rfl
  | cons chunk chunks ih => simp [leading, ih]

theorem firstError?_append_bytes (chunks : List (List UInt8)) (ending : RequestBody) :
    firstError? (chunks.map .bytes ++ ending) = ending.firstError? := by
  induction chunks with
  | nil => rfl
  | cons chunk chunks ih => simpa [firstError?] using ih

/-- There is no other way for a body to end than with its last byte or with a read error. -/
theorem eq_bytes_append (body : RequestBody) :
    ∃ chunks : List (List UInt8), body.leading = chunks.flatten ∧
      (body = chunks.map .bytes ∧ body.firstError? = none ∨
        ∃ message rest, body = chunks.map .bytes ++ .readError message :: rest ∧
          body.firstError? = some message) := by
  induction body with
  | nil => exact ⟨[], rfl, .inl ⟨rfl, rfl⟩⟩
  | cons chunk body ih =>
    cases chunk with
    | readError message => exact ⟨[], rfl, .inr ⟨message, body, rfl, rfl⟩⟩
    | bytes bytes =>
      obtain ⟨chunks, hleading, hend⟩ := ih
      refine ⟨bytes :: chunks, by simp [leading, hleading], ?_⟩
      obtain ⟨hbody, herror⟩ | ⟨message, rest, hbody, herror⟩ := hend
      · exact .inl ⟨by simp [← hbody], herror⟩
      · exact .inr ⟨message, rest, by simp [← hbody], herror⟩

/-- What the reader has when it stops: at the limit, at a read error or at the end. -/
theorem take_eq (limit : Nat) (body : RequestBody) :
    body.take limit =
      if limit ≤ body.leading.length then .ok (body.leading.take limit)
      else body.firstError?.elim (.ok body.leading) .error := by
  induction body generalizing limit with
  | nil => simp [take, leading, firstError?]
  | cons chunk body ih =>
    by_cases hzero : limit = 0
    · cases chunk <;> simp [take, hzero]
    · cases chunk with
      | readError message =>
        have hshort : ¬limit ≤ (leading (.readError message :: body)).length := by
          simpa [leading] using hzero
        rw [take, if_neg hzero, if_neg hshort]
        rfl
      | bytes bytes =>
        -- The chunk is taken up to the limit; the rest of the body sees what the limit leaves.
        have hlength : (leading (.bytes bytes :: body)).length =
            bytes.length + (leading body).length := List.length_append
        have hfits : limit - (bytes.take limit).length ≤ (leading body).length ↔
            limit ≤ (leading (.bytes bytes :: body)).length := by
          rw [hlength, List.length_take]
          omega
        rw [take, if_neg hzero]
        simp only [ih, hfits]
        split
        · have hrest : limit - min limit bytes.length = limit - bytes.length := by omega
          simp only [Except.map, leading, List.take_append, List.length_take, hrest]
        · have hwhole : bytes.take limit = bytes := List.take_of_length_le (by omega)
          rw [hwhole, firstError?]
          cases firstError? body <;> rfl

theorem take_of_reached {limit : Nat} {body : RequestBody} (h : limit ≤ body.leading.length) :
    body.take limit = .ok (body.leading.take limit) := by
  rw [take_eq, if_pos h]

theorem take_of_not_reached {limit : Nat} {body : RequestBody} (h : body.leading.length < limit) :
    body.take limit = body.firstError?.elim (.ok body.leading) .error := by
  rw [take_eq, if_neg (by omega)]

/-- The largest count of bytes a reader can be limited to. -/
def largestLimit : Nat := Nat.pow 2 64 - 1

/-- That the limit stops short of one byte more than the largest maximum is not noticed by any body
below that size. -/
theorem take_saturated {max : Nat} {body : RequestBody}
    (h : max < largestLimit ∨ body.leading.length < largestLimit) :
    body.take (min (max + 1) largestLimit) = body.take (max + 1) := by
  by_cases hmax : max < largestLimit
  · rw [Nat.min_eq_left hmax]
  · have hshort := h.resolve_left hmax
    rw [take_of_not_reached (by omega), take_of_not_reached (by omega)]

section

variable {α : Type} (decode : List UInt8 → Except Json.Malformed α) {max : Nat} {body : RequestBody}

theorem read_of_too_large (h : max + 1 ≤ body.leading.length) :
    body.read decode max = .error (.badRequest [tooLarge max]) := by
  have hlength : (body.leading.take (max + 1)).length = max + 1 := List.length_take_of_le h
  have hsome : (body.leading.take (max + 1)).isEmpty = false := by
    rw [List.isEmpty_eq_false_iff, ← List.length_pos_iff]
    omega
  simp only [read, take_of_reached h, hsome, hlength, Nat.lt_succ_self, if_true,
    Bool.false_eq_true, if_false]

theorem read_of_readError {message : String} (h : body.leading.length ≤ max)
    (herror : body.firstError? = some message) :
    body.read decode max = .error (.internal (some message)) := by
  rw [read, take_of_not_reached (Nat.lt_succ_of_le h), herror]
  rfl

theorem read_of_whole (h : body.leading.length ≤ max) (herror : body.firstError? = none) :
    body.read decode max =
      if body.leading = [] then .error (.badRequest ["Missing request body."])
      else (decode body.leading).mapError (fun e => .badRequest [e.message]) := by
  have htake : body.take (max + 1) = .ok body.leading := by
    rw [take_of_not_reached (Nat.lt_succ_of_le h), herror]
    rfl
  simp only [read, htake, List.isEmpty_iff, if_neg (Nat.not_lt.mpr h)]

theorem read_congr (max : Nat) {body' : RequestBody} (hleading : body.leading = body'.leading)
    (herror : body.firstError? = body'.firstError?) :
    body.read decode max = body'.read decode max := by
  rw [read, read, take_eq, take_eq, hleading, herror]

end

/-- The outcome of reading a body, for any maximum and any decoder of the bytes. The size is judged
before a read error, a read error before the absence of bytes, and only then are the bytes decoded,
all of them as one. Chunks cut in another way, and whatever lies behind a read error, make no
difference; nor does it that the reader's limit saturates, to a body that a machine can hold. -/
theorem read_by_bytes {α : Type} (decode : List UInt8 → Except Json.Malformed α) (max : Nat)
    (body : RequestBody) :
    (∃ chunks : List (List UInt8), body.leading = chunks.flatten ∧
      (body = chunks.map .bytes ∧ body.firstError? = none ∨
        ∃ message rest, body = chunks.map .bytes ++ .readError message :: rest ∧
          body.firstError? = some message)) ∧
    (body.read decode max =
      if max + 1 ≤ body.leading.length then .error (.badRequest [tooLarge max])
      else match body.firstError? with
        | some message => .error (.internal (some message))
        | none =>
          if body.leading = [] then .error (.badRequest ["Missing request body."])
          else (decode body.leading).mapError (fun e => .badRequest [e.message])) ∧
    (∀ body' : RequestBody, body.leading = body'.leading → body.firstError? = body'.firstError? →
      body.read decode max = body'.read decode max) ∧
    (∀ (chunks chunks' : List (List UInt8)) (message : String) (rest rest' : RequestBody),
      chunks.flatten = chunks'.flatten →
        read decode max (chunks.map .bytes ++ body) =
          read decode max (chunks'.map .bytes ++ body) ∧
        read decode max (chunks.map .bytes ++ .readError message :: rest) =
          read decode max (chunks'.map .bytes ++ .readError message :: rest')) ∧
    (max < largestLimit ∨ body.leading.length < largestLimit →
      body.take (min (max + 1) largestLimit) = body.take (max + 1)) := by
  refine ⟨body.eq_bytes_append, ?_, fun body' => read_congr decode max,
    fun chunks chunks' message rest rest' hflat => ⟨?_, ?_⟩, take_saturated⟩
  · split
    next hlarge => exact read_of_too_large decode hlarge
    next hfits =>
      have hfits : body.leading.length ≤ max := by omega
      split
      next message herror => exact read_of_readError decode hfits herror
      next herror => exact read_of_whole decode hfits herror
  · apply read_congr
    · rw [leading_append_bytes, leading_append_bytes, hflat]
    · rw [firstError?_append_bytes, firstError?_append_bytes]
  · apply read_congr
    · rw [leading_append_bytes, leading_append_bytes, hflat]
      rfl
    · rw [firstError?_append_bytes, firstError?_append_bytes]
      rfl

/-- Two brackets in one chunk or in two are the same body, which is one byte too long for a maximum
of one, with or without a read error behind it. -/
theorem read_brackets :
    read Json.readList 2 [.bytes [91, 93]] = read Json.readList 2 [.bytes [91], .bytes [93]] ∧
      read Json.readList 1 [.bytes [91, 93], .readError "reset"] =
        read Json.readList 1 [.bytes [91], .bytes [93], .readError "reset", .bytes [0]] ∧
      read Json.readList 1 [.bytes [91], .bytes [93], .readError "reset"] =
        .error (.badRequest [tooLarge 1]) ∧
      take (min 3 largestLimit) [.bytes [91, 93]] = take 3 [.bytes [91, 93]] := by
  obtain ⟨-, -, hsame, -, hlimit⟩ := read_by_bytes Json.readList 2 [.bytes [91, 93]]
  obtain ⟨-, -, -, hcut, -⟩ := read_by_bytes Json.readList 1 []
  obtain ⟨-, hlarge, -⟩ :=
    read_by_bytes Json.readList 1 [.bytes [91], .bytes [93], .readError "reset"]
  exact ⟨hsame _ rfl rfl, (hcut [[91, 93]] [[91], [93]] "reset" [] [.bytes [0]] rfl).2,
    hlarge.trans rfl, hlimit (.inl (by decide))⟩

end RequestBody

end ObjectDepot
