import CupidOs.Tls.Record

/-!
# Application data

`tls_app_recv` of `kernel/tls/tls_handshake.c` hands out the plaintext of a record over as many
calls as the caller's buffers need.  Its result 0 stands for a closed connection and for a record
without data.
-/

namespace CupidOs.Tls

open List Transition

/-- `tls_ctx_t` as `tls_app_recv` uses it: the records that `tls_record_recv` is going to return,
and the `app_buf_len` bytes of `app_buf` from `app_buf_off` on. -/
structure AppCtx where
  records : List Record
  appBuf : List UInt8

/-- `TLS_ERR_TRANSPORT` and `TLS_ERR_PROTOCOL`. -/
inductive AppError
  | transport
  | protocol

/-- A close_notify alert of either level. -/
def Record.IsCloseNotify (record : Record) : Prop :=
  record.type = rtAlert ∧ 2 ≤ record.data.length ∧ record.data.getD 1 0 = 0

instance (record : Record) : Decidable record.IsCloseNotify :=
  inferInstanceAs (Decidable (_ ∧ _))

/-- The loop of `tls_app_recv`; the call returns the number of bytes it writes. -/
def appRecvLoop (bufMax : Nat) : List Record → AppCtx × Except AppError (List UInt8)
  | [] => (⟨[], []⟩, .error .transport)
  | record :: records =>
    if record.type = rtApplicationData then
      (⟨records, record.data.drop bufMax⟩, .ok (record.data.take bufMax))
    else if record.type = rtAlert then
      (⟨records, []⟩, if record.IsCloseNotify then .ok [] else .error .protocol)
    else if record.type = rtHandshake then
      appRecvLoop bufMax records
    else
      (⟨records, []⟩, .error .protocol)

/-- `tls_app_recv`. -/
def tlsAppRecv : Machine AppCtx Nat (Except AppError (List UInt8))
  | ctx, bufMax =>
    if 0 < ctx.appBuf.length then
      (⟨ctx.records, ctx.appBuf.drop bufMax⟩, .ok (ctx.appBuf.take bufMax))
    else
      appRecvLoop bufMax ctx.records

/-- The plaintexts of the application data records. -/
def appData (records : List Record) : List UInt8 :=
  records.flatMap fun record => if record.type = rtApplicationData then record.data else []

/-- The bytes that calls return. -/
def bytesReturned (replies : List (Except AppError (List UInt8))) : List UInt8 :=
  replies.flatMap fun reply => reply.toOption.getD []

namespace AppCtx

variable (ctx : AppCtx)

/-- The bytes that are still to be returned. -/
def pending : List UInt8 := ctx.appBuf ++ appData ctx.records

/-- Calls with room for a byte that are enough to return them. -/
def calls : Nat :=
  ctx.appBuf.length + (ctx.records.map fun record => record.data.length + 1).sum

end AppCtx

/-- The call returns 0 only if a close_notify alert is among the records received so far. -/
def ZeroMeansClosed (records : List Record) (ctx : AppCtx) (bufMax : Nat) : Prop :=
  (tlsAppRecv ctx bufMax).2.toOption = some [] →
    ∃ received, records = received ++ (tlsAppRecv ctx bufMax).1.records ∧
      ∃ record ∈ received, record.IsCloseNotify

/-! ## One call -/

/-- What a call with room for a byte does: it returns the next bytes, comes closer to the end, and
returns nothing only for a close_notify or a record without data. -/
structure Advances (ctx later : AppCtx) (reply : Except AppError (List UInt8)) : Prop where
  bytes : reply.toOption.getD [] ++ later.pending = ctx.pending
  fewer : later.calls ≤ ctx.calls - 1
  received : ∃ received, ctx.records = received ++ later.records ∧
    (reply.toOption = some [] → (∃ record ∈ received, record.IsCloseNotify) ∨
      ∃ before, received = before ++ [⟨rtApplicationData, []⟩])

lemma AppCtx.pending_eq_nil {ctx : AppCtx} (done : ctx.calls = 0) : ctx.pending = [] := by
  obtain ⟨records, appBuf⟩ := ctx
  rw [AppCtx.calls, Nat.add_eq_zero_iff, length_eq_zero_iff] at done
  cases records with
  | nil => rw [AppCtx.pending, done.1]; rfl
  | cons record records => simp at done

lemma advances_behind {record : Record} (other : record.type ≠ rtApplicationData)
    (records : List Record) {reply : Except AppError (List UInt8)}
    (none : reply.toOption.getD [] = [])
    (closed : reply.toOption = some [] → record.IsCloseNotify) :
    Advances ⟨record :: records, []⟩ ⟨records, []⟩ reply := by
  refine ⟨by simp [AppCtx.pending, appData, other, none], ?_, [record], rfl,
    fun zero => .inl ⟨record, mem_cons_self, closed zero⟩⟩
  simp only [AppCtx.calls, map_cons, sum_cons]
  omega

section

variable {bufMax : Nat} (room : 0 < bufMax)
include room

lemma appRecvLoop_advances (records : List Record) :
    Advances ⟨records, []⟩ (appRecvLoop bufMax records).1 (appRecvLoop bufMax records).2 := by
  induction records with
  | nil => exact ⟨rfl, le_rfl, [], rfl, nofun⟩
  | cons record records ih =>
    rw [appRecvLoop]
    split_ifs with data alert close handshake
    · refine ⟨by simp [AppCtx.pending, appData, data, Except.toOption, ← append_assoc], ?_,
        [record], rfl, ?_⟩
      · simp only [AppCtx.calls, map_cons, sum_cons, length_drop]
        omega
      · intro zero
        have empty := (take_eq_nil_iff.mp (Option.some.inj zero)).resolve_left (by omega)
        exact .inr ⟨[], by rw [← data, ← empty, nil_append]⟩
    · exact advances_behind data records rfl fun _ => close
    · exact advances_behind data records rfl (by simp [Except.toOption])
    · obtain ⟨bytes, fewer, received, split, why⟩ := ih
      refine ⟨by simpa [AppCtx.pending, appData, data] using bytes, ?_, record :: received,
        congrArg (record :: ·) split, fun zero => ?_⟩
      · simp only [AppCtx.calls, map_cons, sum_cons] at fewer ⊢
        omega
      · rcases why zero with ⟨close, member, isClose⟩ | ⟨before, rfl⟩
        · exact .inl ⟨close, mem_cons_of_mem _ member, isClose⟩
        · exact .inr ⟨record :: before, rfl⟩
    · exact advances_behind data records rfl (by simp [Except.toOption])

lemma tlsAppRecv_advances (ctx : AppCtx) :
    Advances ctx (tlsAppRecv ctx bufMax).1 (tlsAppRecv ctx bufMax).2 := by
  obtain ⟨records, appBuf⟩ := ctx
  rw [tlsAppRecv]
  split
  next leftover =>
    refine ⟨by simp [AppCtx.pending, Except.toOption, ← append_assoc], ?_, [], rfl, ?_⟩
    · simp only [AppCtx.calls, length_drop] at leftover ⊢
      omega
    · intro zero
      have empty := (take_eq_nil_iff.mp (Option.some.inj zero)).resolve_left (by omega)
      rw [empty] at leftover
      exact absurd leftover (Nat.lt_irrefl 0)
  next drained =>
    simp only [length_pos_iff, ne_eq, not_not] at drained
    rw [drained]
    exact appRecvLoop_advances room records

end

/-! ## Runs -/

lemma bytesReturned_append (ctx : AppCtx) {sizes : List Nat} (room : ∀ size ∈ sizes, 0 < size) :
    bytesReturned (tlsAppRecv.outputs ctx sizes) ++ (tlsAppRecv.run ctx sizes).pending =
        ctx.pending ∧
      (tlsAppRecv.run ctx sizes).calls ≤ ctx.calls - sizes.length := by
  induction sizes generalizing ctx with
  | nil => exact ⟨rfl, le_rfl⟩
  | cons size sizes ih =>
    rw [forall_mem_cons] at room
    have advances := tlsAppRecv_advances room.1 ctx
    obtain ⟨bytes, fewer⟩ := ih (tlsAppRecv ctx size).1 room.2
    have step := advances.fewer
    constructor
    · rw [← advances.bytes, ← bytes, ← append_assoc]
      rfl
    · rw [Machine.run_cons, length_cons]
      omega

/-- Every record without data comes behind a close_notify. -/
def EmptyOnlyClosed (records : List Record) : Prop :=
  ∀ before after, records = before ++ ⟨rtApplicationData, []⟩ :: after →
    ∃ record ∈ before, record.IsCloseNotify

/-- Calls with large buffers reach every record. -/
theorem reaches_empty (before after : List Record) :
    ∃ sizes : List Nat, (∀ size ∈ sizes, 0 < size) ∧
      tlsAppRecv (tlsAppRecv.run ⟨before ++ ⟨rtApplicationData, []⟩ :: after, []⟩ sizes) 1 =
        (⟨after, []⟩, .ok []) := by
  induction before with
  | nil => exact ⟨[], nofun, rfl⟩
  | cons record before ih =>
    obtain ⟨sizes, room, reached⟩ := ih
    by_cases handshake : record.type = rtHandshake
    · have skips (rest : List Record) (size : Nat) :
          tlsAppRecv ⟨record :: rest, []⟩ size = tlsAppRecv ⟨rest, []⟩ size := by
        simp [tlsAppRecv, appRecvLoop, handshake, rtHandshake, rtApplicationData, rtAlert]
      refine ⟨sizes, room, ?_⟩
      cases sizes with
      | nil => rwa [Machine.run_nil, cons_append, skips]
      | cons size sizes => rwa [Machine.run_cons, cons_append, skips]
    · refine ⟨(record.data.length + 1) :: sizes, by simpa using room, ?_⟩
      have taken (rest : List Record) :
          (tlsAppRecv ⟨record :: rest, []⟩ (record.data.length + 1)).1 = ⟨rest, []⟩ := by
        simp only [tlsAppRecv, appRecvLoop, length_nil, Nat.lt_irrefl, if_false, if_neg handshake]
        split_ifs <;> simp
      rw [Machine.run_cons, cons_append, taken]
      exact reached

/-- For every sequence of records and of buffers with room for a byte, the bytes returned are the
application data in order, all of it after enough calls, and 0 is returned only behind a
close_notify, if and only if every record without data comes behind one. -/
theorem app_data_delivered_iff (records : List Record) :
    (∀ sizes : List Nat, (∀ size ∈ sizes, 0 < size) →
      bytesReturned (tlsAppRecv.outputs ⟨records, []⟩ sizes) <+: appData records ∧
      (AppCtx.calls ⟨records, []⟩ ≤ sizes.length →
        bytesReturned (tlsAppRecv.outputs ⟨records, []⟩ sizes) = appData records) ∧
      tlsAppRecv.Along (ZeroMeansClosed records) ⟨records, []⟩ sizes) ↔
    EmptyOnlyClosed records := by
  constructor
  · rintro delivered before after rfl
    obtain ⟨sizes, room, reached⟩ := reaches_empty before after
    have along := (delivered (sizes ++ [1]) (by simpa [or_imp, forall_and] using room)).2.2
    rw [Machine.along_append_iff] at along
    obtain ⟨received, split, record, member, isClose⟩ := along.2.1 (by rw [reached]; rfl)
    rw [reached, append_cons, append_left_inj] at split
    rw [← split, mem_append, mem_singleton] at member
    rcases member with member | rfl
    · exact ⟨record, member, isClose⟩
    · exact absurd isClose.1 (by decide)
  · intro closed sizes room
    obtain ⟨bytes, fewer⟩ := bytesReturned_append ⟨records, []⟩ room
    refine ⟨⟨_, bytes⟩, fun enough => ?_, ?_⟩
    · rw [Nat.sub_eq_zero_of_le enough, Nat.le_zero] at fewer
      rwa [AppCtx.pending_eq_nil fewer, append_nil] at bytes
    · refine Machine.along_of_invariant
        (I := fun ctx => ∃ earlier, records = earlier ++ ctx.records) (G := fun _ size => 0 < size)
        ?_ ?_ ⟨[], rfl⟩ (Machine.along_forall_iff.mpr room)
      · rintro ctx size ⟨earlier, rfl⟩ room
        obtain ⟨received, split, _⟩ := (tlsAppRecv_advances room ctx).received
        exact ⟨earlier ++ received, by rw [append_assoc, ← split]⟩
      · rintro ctx size ⟨earlier, rfl⟩ room zero
        obtain ⟨received, split, why⟩ := (tlsAppRecv_advances room ctx).received
        refine ⟨earlier ++ received, by rw [append_assoc, ← split], ?_⟩
        rcases why zero with ⟨record, member, isClose⟩ | ⟨before, rfl⟩
        · exact ⟨record, mem_append_right _ member, isClose⟩
        · rw [append_assoc, singleton_append] at split
          obtain ⟨record, member, isClose⟩ :=
            closed (earlier ++ before) _ (by rw [split, append_assoc])
          exact ⟨record, by simp [mem_append.mp member, ← or_assoc], isClose⟩

/-- A record without data on its own returns 0. -/
theorem empty_record_returns_zero :
    ¬tlsAppRecv.Along (ZeroMeansClosed [⟨rtApplicationData, []⟩]) ⟨[⟨rtApplicationData, []⟩], []⟩
      [1] := by
  rintro ⟨zero, -⟩
  obtain ⟨received, split, record, member, isClose⟩ := zero rfl
  rw [show received = [⟨rtApplicationData, []⟩] from (append_nil received).symm.trans split.symm,
    mem_singleton] at member
  rw [member] at isClose
  exact absurd isClose.1 (by decide)

end CupidOs.Tls
