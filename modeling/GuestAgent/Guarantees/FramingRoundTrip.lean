import GuestAgent.Source.TcpFraming

/-!
When the messages received are the messages sent.

`__recv` takes whatever one `Read` hands over for the whole buffer. A message arrives, and the
stream is left at the start of the next one, exactly if both of its reads were full; so a way
of cutting the stream is harmless for every list of messages exactly if no `Read` is ever
short. A short read of the length leaves the other bytes of the buffer zero and can only lower
the length, which is why no later read makes up for it.
-/
namespace GuestAgent.Guarantees.FramingRoundTrip
open Source Library

variable {replaced : List UInt8 → String} {cut : Nat → Nat}

/-- Receiving as many messages as were sent gives the messages that were sent. -/
def Returned (replaced : List UInt8 → String) (cut : Nat → Nat) (msgs : List String) : Prop :=
  ((sent msgs).recvMessages replaced cut msgs.length).map Prod.fst = .ok msgs

/-- Every receive returns its message and leaves exactly the later ones in the stream. -/
def InSync (replaced : List UInt8 → String) (cut : Nat → Nat) (start : Nat)
    (msgs : List String) : Prop :=
  ∀ k ≤ msgs.length,
    NetworkStream.recvMessages replaced cut k ⟨start, msgs.flatMap frame⟩ =
      .ok (msgs.take k, ⟨start + 2 * k, (msgs.drop k).flatMap frame⟩)

/-- Neither read of the `k`-th message is short: that of its length, and that of its body. -/
def FullAt (cut : Nat → Nat) (start : Nat) (msgs : List String) (k : Nat) : Prop :=
  ∀ msg, msgs[k]? = some msg →
    4 ≤ cut (start + 2 * k) ∧ (getBytes msg).length ≤ max 1 (cut (start + 2 * k + 1))

/-- No read of these messages is short. -/
def FullReads (cut : Nat → Nat) (start : Nat) (msgs : List String) : Prop :=
  ∀ k, FullAt cut start msgs k

/-- No read is short, whatever is sent: a length has four bytes, a body at most `2 ^ 31 - 1`. -/
def NeverShort (cut : Nat → Nat) : Prop :=
  ∀ k, 4 ≤ cut (2 * k) ∧ 2 ^ 31 - 1 ≤ cut (2 * k + 1)

/-! ### One read -/

/-- A read into a buffer of the size of what comes next in the stream. -/
theorem recv_append (cut : Nat → Nat) (start : Nat) (bytes tail buf : List UInt8)
    (sameSize : buf.length = bytes.length) :
    NetworkStream.recv cut ⟨start, bytes ++ tail⟩ buf =
      (bytes.take (min bytes.length (max 1 (cut start))) ++
          buf.drop (min bytes.length (max 1 (cut start))),
        ⟨start + 1, bytes.drop (min bytes.length (max 1 (cut start))) ++ tail⟩) := by
  have enough : min buf.length (bytes ++ tail).length = bytes.length := by
    simp [sameSize]
  have within : min bytes.length (max 1 (cut start)) ≤ bytes.length := Nat.min_le_left _ _
  simp only [NetworkStream.recv, NetworkStream.delivered, enough]
  rw [List.take_append_of_le_length within, List.drop_append_of_le_length within]

theorem recv_full (start : Nat) (bytes tail buf : List UInt8)
    (sameSize : buf.length = bytes.length) (full : bytes.length ≤ max 1 (cut start)) :
    NetworkStream.recv cut ⟨start, bytes ++ tail⟩ buf = (bytes, ⟨start + 1, tail⟩) := by
  rw [recv_append cut start bytes tail buf sameSize, Nat.min_eq_left full]
  simp [← sameSize]

/-! ### The length -/

/-- The length read after `r` of its four bytes arrived. -/
def lengthAfter (msg : String) (r : Nat) : Nat :=
  hostToNetworkOrder (leValue ((lengthBytes msg).take r ++ List.replicate (4 - r) 0))

theorem lengthAfter_le {msg : String} (fits : Fits msg) (r : Nat) :
    lengthAfter msg r ≤ (getBytes msg).length := by
  let filled := (lengthBytes msg).take r ++ List.replicate (4 - r) 0
  have filledFour : filled.length = 4 := by
    simp only [filled, List.length_append, List.length_take, List.length_replicate,
      lengthBytes_length]
    omega
  have whole : leValue (lengthBytes msg).reverse = (getBytes msg).length := by
    rw [← byteSwap_leValue, lengthBytes_length]
    exact hostToNetworkOrder_lengthBytes fits
  have partly : lengthAfter msg r = leValue filled.reverse := by
    rw [← byteSwap_leValue, filledFour]
    rfl
  have bytewise := zeroFilled_le (lengthBytes msg) r
  rw [lengthBytes_length] at bytewise
  rw [partly, ← whole]
  exact leValue_mono (List.rel_reverse bytewise)

theorem lengthAfter_four {msg : String} (fits : Fits msg) :
    lengthAfter msg 4 = (getBytes msg).length := by
  have taken : (lengthBytes msg).take 4 = lengthBytes msg := List.take_of_length_le (by simp)
  rw [lengthAfter, taken, Nat.sub_self, List.replicate_zero, List.append_nil]
  exact hostToNetworkOrder_lengthBytes fits

/-! ### One message -/

/-- One receive, by the number of bytes of the length that arrived. -/
theorem recvMessage_frame (replaced : List UInt8 → String) (cut : Nat → Nat) {msg : String}
    (fits : Fits msg) (start : Nat) (tail : List UInt8) :
    NetworkStream.recvMessage replaced cut ⟨start, frame msg ++ tail⟩ =
      let r := min 4 (max 1 (cut start))
      let body := NetworkStream.recv cut
        ⟨start + 1, (lengthBytes msg).drop r ++ (getBytes msg ++ tail)⟩
        (List.replicate (lengthAfter msg r) 0)
      .ok (getString replaced body.1, body.2) := by
  have first := recv_append cut start (lengthBytes msg)
    (getBytes msg ++ tail) (List.replicate 4 0) (by simp)
  have lower := lengthAfter_le fits (min 4 (max 1 (cut start)))
  have signed : ¬ 2 ^ 31 ≤ lengthAfter msg (min 4 (max 1 (cut start))) := by
    have := fits
    simp only [Fits] at this
    omega
  simp only [lengthBytes_length, List.drop_replicate] at first
  simp only [NetworkStream.recvMessage, frame, List.append_assoc, first]
  exact if_neg signed

theorem recvMessage_full (replaced : List UInt8 → String) {msg : String} (fits : Fits msg)
    {start : Nat} (tail : List UInt8) (length : 4 ≤ cut start)
    (body : (getBytes msg).length ≤ max 1 (cut (start + 1))) :
    NetworkStream.recvMessage replaced cut ⟨start, frame msg ++ tail⟩ =
      .ok (msg, ⟨start + 2, tail⟩) := by
  have four : min 4 (max 1 (cut start)) = 4 := by omega
  have nothing : (lengthBytes msg).drop 4 = [] := List.drop_of_length_le (by simp)
  rw [recvMessage_frame replaced cut fits]
  simp only [four, nothing, List.nil_append, lengthAfter_four fits]
  rw [recv_full (start + 1) (getBytes msg) tail _ (by simp) body, getString_getBytes]

/-- A receive that leaves the stream at the next message had two full reads. -/
theorem full_of_recvMessage {msg other : String} (fits : Fits msg) {start next : Nat}
    {tail : List UInt8}
    (received : NetworkStream.recvMessage replaced cut ⟨start, frame msg ++ tail⟩ =
      .ok (other, ⟨next, tail⟩)) :
    4 ≤ cut start ∧ (getBytes msg).length ≤ max 1 (cut (start + 1)) := by
  rw [recvMessage_frame replaced cut fits] at received
  simp only [Except.ok.injEq, Prod.mk.injEq] at received
  have lower := lengthAfter_le fits (min 4 (max 1 (cut start)))
  have left := congrArg (fun ns => ns.rest.length) received.2
  simp only [NetworkStream.recv, NetworkStream.delivered, List.length_drop, List.length_append,
    List.length_replicate, lengthBytes_length] at left
  omega

/-! ### All messages -/

theorem recvMessages_one (stream : NetworkStream) :
    stream.recvMessages replaced cut 1 =
      (stream.recvMessage replaced cut).map (fun first => ([first.1], first.2)) := by
  simp only [NetworkStream.recvMessages]
  cases stream.recvMessage replaced cut <;> rfl

/-- Receiving in two goes. -/
theorem recvMessages_add {a : Nat} {stream next : NetworkStream} {msgs : List String}
    (first : stream.recvMessages replaced cut a = .ok (msgs, next)) (b : Nat) :
    stream.recvMessages replaced cut (a + b) =
      (next.recvMessages replaced cut b).map (fun more => (msgs ++ more.1, more.2)) := by
  induction a generalizing stream msgs with
  | zero =>
    simp only [NetworkStream.recvMessages, Except.ok.injEq, Prod.mk.injEq] at first
    obtain ⟨rfl, rfl⟩ := first
    rw [Nat.zero_add]
    cases stream.recvMessages replaced cut b <;> rfl
  | succ a ih =>
    rw [Nat.add_right_comm]
    simp only [NetworkStream.recvMessages] at first ⊢
    cases one : stream.recvMessage replaced cut with
    | error e => simp [one] at first
    | ok received =>
      cases later : received.2.recvMessages replaced cut a with
      | error e => simp [one, later] at first
      | ok more =>
        simp only [one, later, Except.ok.injEq, Prod.mk.injEq] at first
        obtain ⟨rfl, rfl⟩ := first
        simp only [ih later]
        cases more.2.recvMessages replaced cut b <;> rfl

theorem flatMap_drop {msgs : List String} {k : Nat} {msg : String} (found : msgs[k]? = some msg) :
    (msgs.drop k).flatMap frame = frame msg ++ (msgs.drop (k + 1)).flatMap frame := by
  obtain ⟨inside, rfl⟩ := List.getElem?_eq_some_iff.mp found
  rw [List.drop_eq_getElem_cons inside, List.flatMap_cons]

/-- As long as no read was short, the messages received are those sent first. -/
theorem recvMessages_take (replaced : List UInt8 → String) {start k : Nat} {msgs : List String}
    (fits : ∀ msg ∈ msgs, Fits msg) (inside : k ≤ msgs.length)
    (full : ∀ j < k, FullAt cut start msgs j) :
    NetworkStream.recvMessages replaced cut k ⟨start, msgs.flatMap frame⟩ =
      .ok (msgs.take k, ⟨start + 2 * k, (msgs.drop k).flatMap frame⟩) := by
  induction k with
  | zero => simp [NetworkStream.recvMessages]
  | succ k ih =>
    have found : msgs[k]? = some msgs[k] := List.getElem?_eq_getElem (by omega)
    have reads := full k (Nat.lt_succ_self k) msgs[k] found
    have one := recvMessage_full replaced (fits _ (List.getElem_mem _))
      ((msgs.drop (k + 1)).flatMap frame) reads.1 reads.2
    have before := ih (by omega) (fun j earlier => full j (by omega))
    rw [recvMessages_add before 1, recvMessages_one, flatMap_drop found, one,
      List.take_add_one, found]
    simp [Except.map, Nat.mul_add, Nat.add_assoc]

theorem fullReads_of_inSync {start : Nat} {msgs : List String} (fits : ∀ msg ∈ msgs, Fits msg)
    (sync : InSync replaced cut start msgs) : FullReads cut start msgs := by
  intro k msg found
  have inside := (List.getElem?_eq_some_iff.mp found).1
  have before := sync k (by omega)
  have after := sync (k + 1) (by omega)
  rw [recvMessages_add before 1, recvMessages_one, flatMap_drop found] at after
  cases one : NetworkStream.recvMessage replaced cut
      ⟨start + 2 * k, frame msg ++ (msgs.drop (k + 1)).flatMap frame⟩ with
  | error e => simp [one, Except.map] at after
  | ok received =>
    obtain ⟨other, next⟩ := received
    simp only [one, Except.map, Except.ok.injEq, Prod.mk.injEq] at after
    rw [after.2] at one
    exact full_of_recvMessage (fits msg (List.mem_of_getElem? found)) one

theorem returned_of_inSync {msgs : List String} (sync : InSync replaced cut 0 msgs) :
    Returned replaced cut msgs := by
  have whole := sync msgs.length (Nat.le_refl _)
  rw [Returned, sent_eq, whole]
  simp [Except.map]

/-! ### Cuts that are harmless for every list of messages -/

theorem fullReads_of_neverShort (never : NeverShort cut) {msgs : List String}
    (fits : ∀ msg ∈ msgs, Fits msg) : FullReads cut 0 msgs := by
  intro k msg found
  have short := fits msg (List.mem_of_getElem? found)
  have reads := never k
  simp only [Fits] at short
  rw [Nat.zero_add]
  omega

/-- The message `"aa…a"` with `n` letters. -/
def letters (n : Nat) : String := String.ofList (List.replicate n 'a')

theorem getBytes_append (first second : String) :
    getBytes (first ++ second) = getBytes first ++ getBytes second := by
  simp [getBytes]

theorem getBytes_letters (n : Nat) : getBytes (letters n) = List.replicate n 97 := by
  induction n with
  | zero => simp [letters, getBytes]
  | succ n ih =>
    have unroll : letters (n + 1) = "a" ++ letters n := by
      simp [letters, List.replicate_succ]
    rw [unroll, getBytes_append, ih, List.replicate_succ]
    rfl

/-- What the last message needs when only empty ones were sent before it. -/
theorem received_last {k : Nat} {msg : String} (fits : Fits msg)
    (lengths : ∀ j < k, 4 ≤ cut (2 * j))
    (returned : Returned replaced cut (List.replicate k "" ++ [msg])) :
    (NetworkStream.recvMessage replaced cut ⟨2 * k, frame msg⟩).map Prod.fst = .ok msg := by
  let msgs := List.replicate k "" ++ [msg]
  have allFit : ∀ other ∈ msgs, Fits other := by
    intro other member
    rcases List.mem_append.mp member with blank | last
    · rw [List.eq_of_mem_replicate blank]
      decide
    · rw [List.mem_singleton.mp last]
      exact fits
  have full : ∀ j < k, FullAt cut 0 msgs j := by
    intro j earlier other found
    have blank : msgs[j]? = some "" := by
      rw [List.getElem?_append_left (by simpa using earlier)]
      simp [earlier]
    have four := lengths j earlier
    have empty : (getBytes "").length = 0 := by decide
    obtain rfl : other = "" := by simpa [blank] using found.symm
    rw [Nat.zero_add]
    omega
  have before := recvMessages_take replaced allFit (by simp [msgs]) full
  have onlyLast : msgs.drop k = [msg] := List.drop_left' (List.length_replicate)
  have firsts : msgs.take k = List.replicate k "" := List.take_left' (List.length_replicate)
  rw [onlyLast, firsts, Nat.zero_add] at before
  have whole : msgs.length = k + 1 := by simp [msgs]
  rw [Returned, sent_eq, whole, recvMessages_add before 1, recvMessages_one] at returned
  simp only [List.flatMap_cons, List.flatMap_nil, List.append_nil] at returned
  cases one : NetworkStream.recvMessage replaced cut ⟨2 * k, frame msg⟩ with
  | error e => simp [one, Except.map] at returned
  | ok received =>
    simpa [one, Except.map] using returned

theorem lengthAfter_letter : ∀ r < 4, lengthAfter "a" r = 0 := by decide

/-- A short read of the length loses the message `"a"`. -/
theorem four_of_received {start : Nat}
    (received : (NetworkStream.recvMessage replaced cut ⟨start, frame "a"⟩).map Prod.fst =
      .ok "a") : 4 ≤ cut start := by
  by_contra short
  have few : min 4 (max 1 (cut start)) < 4 := by omega
  have one := recvMessage_frame replaced cut (by decide : Fits "a") start []
  rw [List.append_nil] at one
  rw [one] at received
  have nothing : getString replaced [] = "" := getString_getBytes replaced ""
  simp only [lengthAfter_letter _ few, NetworkStream.recv, Except.map, List.replicate_zero,
    List.length_nil, NetworkStream.delivered, Nat.zero_min, List.take_zero, List.drop_zero,
    List.append_nil, nothing, Except.ok.injEq] at received
  exact absurd received (by decide)

/-- A short read of a body puts a zero for its last byte. -/
theorem body_of_received {start n : Nat} (fits : Fits (letters (n + 1))) (length : 4 ≤ cut start)
    (received : (NetworkStream.recvMessage replaced cut
      ⟨start, frame (letters (n + 1))⟩).map Prod.fst = .ok (letters (n + 1))) :
    max 1 (cut (start + 1)) ≠ n := by
  intro short
  have four : min 4 (max 1 (cut start)) = 4 := by omega
  have nothing : (lengthBytes (letters (n + 1))).drop 4 = [] := List.drop_of_length_le (by simp)
  have raw : (NetworkStream.recv cut ⟨start + 1, getBytes (letters (n + 1)) ++ []⟩
      (List.replicate (getBytes (letters (n + 1))).length 0)).1 = List.replicate n 97 ++ [0] := by
    rw [recv_append cut (start + 1) _ [] _ (by simp), getBytes_letters]
    simp [short]
  have text : getString replaced (List.replicate n 97 ++ [0]) = letters n ++ "\x00" := by
    rw [← getBytes_letters, ← getString_getBytes replaced (letters n ++ "\x00"), getBytes_append]
    rfl
  have one := recvMessage_frame replaced cut fits start []
  rw [List.append_nil] at one
  simp only [four, nothing, List.nil_append, lengthAfter_four fits, raw, text] at one
  rw [one] at received
  have same : letters n ++ "\x00" = letters (n + 1) := by simpa [Except.map] using received
  have bytes := congrArg getBytes same
  rw [getBytes_append, getBytes_letters, getBytes_letters, List.replicate_succ'] at bytes
  have last : getBytes "\x00" = [97] := List.append_cancel_left bytes
  exact absurd last (by decide)

/-! ### The main results -/

theorem neverShort_of_returned
    (always : ∀ msgs : List String, (∀ msg ∈ msgs, Fits msg) → Returned replaced cut msgs) :
    NeverShort cut := by
  have last : ∀ k msg, (∀ j < k, 4 ≤ cut (2 * j)) → Fits msg →
      (NetworkStream.recvMessage replaced cut ⟨2 * k, frame msg⟩).map Prod.fst = .ok msg := by
    intro k msg lengths fits
    apply received_last fits lengths
    apply always
    intro other member
    rcases List.mem_append.mp member with blank | alone
    · rw [List.eq_of_mem_replicate blank]
      decide
    · rw [List.mem_singleton.mp alone]
      exact fits
  -- each length before the k-th is read in full, so the k-th receive is in step
  have lengths : ∀ k, 4 ≤ cut (2 * k) := by
    intro k
    induction k using Nat.strongRecOn with
    | ind k earlier => exact four_of_received (last k "a" earlier (by decide))
  intro k
  refine ⟨lengths k, ?_⟩
  by_contra short
  let n := max 1 (cut (2 * k + 1))
  have fits : Fits (letters (n + 1)) := by
    rw [Fits, getBytes_letters, List.length_replicate]
    omega
  exact body_of_received fits (lengths k) (last k _ (fun j _ => lengths j) fits) rfl

/-- For given messages and a given way of cutting the stream: they are received one by one, each
leaving the stream at the next, exactly if no read was short; then the list received is the list
sent. And a way of cutting the stream returns every list of messages exactly if it never makes a
read short. -/
theorem returned_iff_neverShort (replaced : List UInt8 → String) (cut : Nat → Nat) :
    (∀ msgs : List String, (∀ msg ∈ msgs, Fits msg) →
      (InSync replaced cut 0 msgs ↔ FullReads cut 0 msgs) ∧
      (FullReads cut 0 msgs → Returned replaced cut msgs)) ∧
    ((∀ msgs : List String, (∀ msg ∈ msgs, Fits msg) → Returned replaced cut msgs) ↔
      NeverShort cut) := by
  have enough : ∀ msgs : List String, (∀ msg ∈ msgs, Fits msg) →
      FullReads cut 0 msgs → InSync replaced cut 0 msgs :=
    fun msgs fits full k inside => recvMessages_take replaced fits inside (fun j _ => full j)
  constructor
  · intro msgs fits
    refine ⟨⟨fullReads_of_inSync fits, enough msgs fits⟩, ?_⟩
    intro full
    exact returned_of_inSync (enough msgs fits full)
  · refine ⟨neverShort_of_returned, ?_⟩
    intro never msgs fits
    exact returned_of_inSync (enough msgs fits (fullReads_of_neverShort never fits))

/-- A body that arrives in two pieces is cut off, and filled up with a zero. -/
theorem short_body_is_not_returned :
    ¬ ∀ (replaced : List UInt8 → String) (cut : Nat → Nat) (msgs : List String),
      (∀ msg ∈ msgs, Fits msg) → Returned replaced cut msgs := by
  intro always_returned
  have lost := always_returned (fun _ => "") (fun n => if n = 1 then 1 else 4) ["{}"] (by decide)
  unfold Returned at lost
  exact absurd lost (by decide)

end GuestAgent.Guarantees.FramingRoundTrip
