import KernelLane.KernRegistry

namespace KernelLane.Kern

open GuestFrame Kernel List Machine

/-!
# The arguments of a new session

The guest library packs a module name, a path, a mask and argument strings
into a SPAWN request; the kernel unpacks them and starts the session with the
module name and the strings as its arguments.  The two sides do not agree on
the layout: the library writes the number of strings at offset 84 and the
strings at 86, the kernel reads the number at 86 and the strings at 88.
-/

/-! ## The request -/

def pad64 (path : Bytes) : Bytes := path.take 64 ++ replicate (64 - path.length) 0

def argvBuf (args : List Bytes) : Bytes := args.flatMap fun arg => arg ++ [0]

def spawnPayload (name path : Bytes) (capmask : UInt64) (args : List Bytes) : Bytes :=
  Fs.padName name ++ pad64 path ++ put32 capmask.toUInt32 ++
    put16 (UInt16.ofNat args.length) ++ argvBuf args

def spawnRequest (seq : UInt16) (name path : Bytes) (capmask : UInt64)
    (args : List Bytes) : Bytes :=
  registryCall 4 seq (spawnPayload name path capmask args)

theorem length_pad64 (path : Bytes) : (pad64 path).length = 64 := by
  simp [pad64]
  omega

variable {name : Bytes} {args : List Bytes} {slot : Nat}

theorem drop_spawnPayload (short : name.length ≤ 15) (path : Bytes) (capmask : UInt64)
    (args : List Bytes) : (spawnPayload name path capmask args).drop 86 = argvBuf args := by
  have header : (Fs.padName name ++ pad64 path ++ put32 capmask.toUInt32 ++
      put16 (UInt16.ofNat args.length)).length = 86 := by
    simp [Fs.length_padName (Nat.le_succ_of_le short), length_pad64]
  exact drop_left' header

theorem length_spawnPayload (short : name.length ≤ 15) (path : Bytes) (capmask : UInt64)
    (args : List Bytes) :
    (spawnPayload name path capmask args).length = 86 + (argvBuf args).length := by
  simp [spawnPayload, Fs.length_padName (Nat.le_succ_of_le short), length_pad64]
  omega

/-! ## Strings that the kernel reads -/

def readArgs : Nat → Bytes → List Bytes
  | 0, _ => []
  | count + 1, bytes => (nextArg bytes).1 :: readArgs count (nextArg bytes).2

@[simp] theorem length_readArgs (count : Nat) (bytes : Bytes) :
    (readArgs count bytes).length = count := by
  induction count generalizing bytes with
  | zero => rfl
  | succ count hypothesis => simp [readArgs, hypothesis]

theorem copyArgs_eq_readArgs {size : Nat} (count used : Nat) (bytes : Bytes)
    (room : used + 1 + argBytes count bytes ≤ size) :
    copyArgs size count used bytes = readArgs count bytes := by
  induction count generalizing used bytes with
  | zero => rfl
  | succ count hypothesis =>
    simp only [argBytes] at room
    simp only [copyArgs, readArgs]
    rw [if_neg (by omega), hypothesis _ _ (by omega)]

/-- The kernel takes the first two bytes of the strings for their number. -/
theorem spawnArgs_eq_readArgs (program payload : Bytes) : spawnArgs program payload =
    if 88 ≤ payload.length then readArgs (min (get16 payload 86).toNat 6) (payload.drop 88)
    else [] := by
  unfold spawnArgs
  split
  · exact copyArgs_eq_readArgs _ _ _ (Nat.le_refl _)
  · rfl

theorem length_spawnArgs_le (program payload : Bytes) : (spawnArgs program payload).length ≤ 6 := by
  rw [spawnArgs_eq_readArgs]
  split
  · rw [length_readArgs]
    exact Nat.min_le_right _ _
  · exact Nat.zero_le _

def textBytes (args : List Bytes) : Nat := (args.map List.length).sum

/-- A string that has a terminator leaves the other terminators behind. -/
theorem nextArg_bytes (bytes : Bytes) : (0 ∈ bytes ∧
      (nextArg bytes).1.length + 1 + (nextArg bytes).2.length = bytes.length ∧
      (nextArg bytes).2.count 0 + 1 = bytes.count 0) ∨
    (0 ∉ bytes ∧ (nextArg bytes).1.length = bytes.length ∧ (nextArg bytes).2 = []) := by
  induction bytes with
  | nil => simp [nextArg, cstr]
  | cons byte rest hypothesis =>
    by_cases isZero : byte = 0
    · subst isZero
      left
      simp [nextArg, cstr]
      omega
    · have split : nextArg (byte :: rest) = (byte :: (nextArg rest).1, (nextArg rest).2) := by
        simp [nextArg, cstr, isZero]
      have apart : (0 : UInt8) ≠ byte := Ne.symm isZero
      rw [split]
      rcases hypothesis with
        ⟨has, lengths, counts⟩ | ⟨lacks, lengths, empty⟩
      · left
        refine ⟨mem_cons_of_mem _ has, ?_, ?_⟩
        · simp only [length_cons]
          omega
        · rw [count_cons_of_ne isZero]
          exact counts
      · right
        refine ⟨?_, ?_, empty⟩
        · simp [apart, lacks]
        · simp [lengths]

/-- Every string that is read takes its bytes and, if there, a terminator. -/
theorem textBytes_readArgs_le (count : Nat) (bytes : Bytes) :
    textBytes (readArgs count bytes) + min count (bytes.count 0) ≤ bytes.length := by
  induction count generalizing bytes with
  | zero => simp [readArgs, textBytes]
  | succ count hypothesis =>
    have later := hypothesis (nextArg bytes).2
    have sum : textBytes (readArgs (count + 1) bytes) = (nextArg bytes).1.length +
        textBytes (readArgs count (nextArg bytes).2) := by
      simp [readArgs, textBytes]
    rcases nextArg_bytes bytes with
      ⟨_, lengths, counts⟩ | ⟨lacks, lengths, empty⟩
    · omega
    · rw [empty] at later sum
      have none : bytes.count 0 = 0 := count_eq_zero.mpr lacks
      simp only [length_nil] at later
      omega

/-! ## Strings that the library writes -/

theorem length_argvBuf (args : List Bytes) :
    (argvBuf args).length = textBytes args + args.length := by
  induction args with
  | nil => rfl
  | cons arg rest hypothesis =>
    simp [argvBuf, textBytes] at hypothesis ⊢
    omega

theorem count_argvBuf (nulFree : ∀ arg ∈ args, (0 : UInt8) ∉ arg) :
    (argvBuf args).count 0 = args.length := by
  induction args with
  | nil => rfl
  | cons arg rest hypothesis =>
    have head : arg.count 0 = 0 := count_eq_zero.mpr (nulFree arg mem_cons_self)
    have tail := hypothesis fun other member => nulFree other (mem_cons_of_mem _ member)
    simp [argvBuf] at tail ⊢
    omega

variable {payload : Bytes}

theorem get16_argvBuf (long : 88 ≤ payload.length) :
    (get16 payload 86).toNat = Words.getLE ((payload.drop 86).take 2) := by
  have small := Words.getLE_lt ((payload.drop 86).take 2)
  have two : ((payload.drop 86).take 2).length = 2 := by
    simp
    omega
  rw [two] at small
  exact UInt16.toNat_ofNat_of_lt' small

theorem getLE_of_count {bytes : Bytes} (two : bytes.length = 2) (zeros : 2 ≤ bytes.count 0) :
    Words.getLE bytes = 0 := by
  match bytes, two with
  | [low, high], _ =>
    by_cases lowZero : low = 0 <;> by_cases highZero : high = 0 <;> simp_all [Words.getLE]

theorem spawnArgs_ne (short : name.length ≤ 15) (nulFree : ∀ arg ∈ args, (0 : UInt8) ∉ arg)
    (some : args ≠ []) (program path : Bytes) (capmask : UInt64) :
    spawnArgs program (spawnPayload name path capmask args) ≠ args := by
  intro same
  rw [spawnArgs_eq_readArgs] at same
  split at same
  case isFalse => exact some same.symm
  next long =>
  generalize payloadOf : spawnPayload name path capmask args = payload at *
  have strings : payload.drop 86 = argvBuf args := by
    rw [← payloadOf]
    exact drop_spawnPayload short path capmask args
  have rest : payload.drop 88 = (argvBuf args).drop 2 := by rw [← strings, drop_drop]
  rw [rest, get16_argvBuf long, strings] at same
  have length := congrArg List.length same
  rw [length_readArgs] at length
  have enough : 2 ≤ (argvBuf args).length := by
    rw [← strings, length_drop]
    omega
  -- What the kernel reads needs as many terminators as there are strings, and
  -- two bytes of the buffer are gone: both of them were terminators.
  have read :=
    textBytes_readArgs_le (min (Words.getLE ((argvBuf args).take 2)) 6) ((argvBuf args).drop 2)
  rw [same, length, length_drop, length_argvBuf] at read
  have counts : ((argvBuf args).take 2).count 0 + ((argvBuf args).drop 2).count 0 =
      args.length := by
    rw [← count_append, take_append_drop, count_argvBuf nulFree]
  have total := length_argvBuf args
  have zeros : 2 ≤ ((argvBuf args).take 2).count 0 := by omega
  have taken : ((argvBuf args).take 2).length = 2 := by
    rw [length_take]
    omega
  rw [getLE_of_count taken zeros] at length
  exact some (eq_nil_of_length_eq_zero (by simpa using length.symm))

/-! ## The new session -/

variable {sched : Sched}

theorem not_spawned_setSession {taken : Nat} {session : Session}
    (stays : session.status = (sched.sessions taken).status) :
    spawned sched (sched.setSession taken session) slot = false := by
  unfold spawned
  by_cases same : slot = taken
  · subst same
    rw [Sched.sessions_setSession_self, stays]
    cases (sched.sessions slot).status <;> rfl
  · rw [Sched.sessions_setSession_of_ne sched _ same]
    cases (sched.sessions slot).status <;> rfl

variable {capmask : UInt64}

theorem spawnImage_argv {env : Sched.SpawnEnv} {modname : Bytes} {uid : UInt32} {argv : List Bytes} (spawned : spawned sched
      (sched.spawnImage env name uid capmask modname argv).2 slot = true) :
    ((sched.spawnImage env name uid capmask modname argv).2.sessions slot).argv = argv.take 14 := by
  have started := sched.spawnImage_spawned env name uid capmask modname argv
  generalize sched.spawnImage env name uid capmask modname argv = result at spawned started ⊢
  cases started with
  | kept =>
    rw [not_spawned_self] at spawned
    cases spawned
  | idle free still =>
    rw [not_spawned_setSession (still.trans free.symm)] at spawned
    cases spawned
  | @started taken session _ _ _ _ _ given =>
    by_cases same : slot = taken
    · subst same
      rw [Sched.sessions_setSession_self]
      exact given
    unfold Machine.spawned at spawned
    rw [Sched.sessions_setSession_of_ne sched _ same] at spawned
    exact absurd spawned (by cases (sched.sessions slot).status <;> simp)

variable {kernel : Kernel} {env : SvcEnv} {sid : UInt32}

theorem registrySpawn_argv (spawned : spawned kernel.sched
      (kernel.registrySpawn env sid payload).2.sched slot = true) :
    ((kernel.registrySpawn env sid payload).2.sched.sessions slot).argv =
      (cstr (payload.take 16)).take 15 :: spawnArgs ((cstr (payload.take 16)).take 15) payload := by
  rcases registrySpawn_cases kernel env sid payload with
    same | ⟨name, uid, want, modname, _, started⟩
  · rw [same, not_spawned_self] at spawned
    cases spawned
  rw [started] at spawned ⊢
  rw [spawnImage_argv spawned]
  have short := length_spawnArgs_le ((cstr (payload.take 16)).take 15) payload
  exact take_of_length_le (by rw [length_cons]; omega)

/-! ## The request on its way -/

theorem program_spawnPayload (short : name.length ≤ 15) (path : Bytes) (capmask : UInt64)
    (args : List Bytes) :
    (cstr ((spawnPayload name path capmask args).take 16)).take 15 = cstr name := by
  have padded : (Fs.padName name).length = 16 := Fs.length_padName (Nat.le_succ_of_le short)
  have first : (spawnPayload name path capmask args).take 16 = Fs.padName name := by
    unfold spawnPayload
    simp only [append_assoc]
    exact take_left' padded
  have zeros : cstr (Fs.padName name) = cstr name := by
    unfold Fs.padName cstr
    rw [take_of_length_le (by omega), takeWhile_append]
    split
    next full =>
      have whole := (List.takeWhile_prefix _).eq_of_length full
      obtain ⟨count, more⟩ : ∃ count, 16 - name.length = count + 1 := ⟨15 - name.length, by omega⟩
      rw [whole, more, replicate_succ, takeWhile_cons_of_neg (by decide), append_nil]
    · rfl
  rw [first, zeros]
  refine take_of_length_le ?_
  exact Nat.le_trans (List.takeWhile_prefix _).length_le short

/--
A new session gets the module name and the strings of its SPAWN request
exactly if there are no strings and no zero byte cuts the name.
-/
theorem spawn_args_survive_iff {h : Int}
    {seq : UInt16} {path : Bytes} (bound : OnRegistry kernel sid h)
    (short : name.length ≤ 15) (nulFree : ∀ arg ∈ args, (0 : UInt8) ∉ arg)
    (spawned : spawned kernel.sched (kernel.send env sid h
      (spawnRequest seq name path capmask args)).sched slot = true) :
    ((kernel.send env sid h (spawnRequest seq name path capmask args)).sched.sessions slot).argv =
        name :: args ↔ args = [] ∧ (0 : UInt8) ∉ name := by
  unfold spawnRequest at spawned ⊢
  by_cases fits : 24 + (spawnPayload name path capmask args).length ≤ msgMax
  swap
  · rw [Kernel.send, bound.portSend_long (Nat.lt_of_not_le fits), not_spawned_self] at spawned
    cases spawned
  have served : (kernel.send env sid h
        (registryCall 4 seq (spawnPayload name path capmask args))).sched =
      (kernel.registrySpawn env sid (spawnPayload name path capmask args)).2.sched :=
    bound.send_sched fits env 4 seq
  rw [served] at spawned ⊢
  rw [registrySpawn_argv spawned, program_spawnPayload short]
  constructor
  · intro arguments
    obtain ⟨first, rest⟩ := List.cons.inj arguments
    refine ⟨?_, cstr_eq_self_iff.mp first⟩
    by_contra some
    exact spawnArgs_ne short nulFree some _ path capmask rest
  · rintro ⟨rfl, noZero⟩
    rw [cstr_eq_self_iff.mpr noZero, spawnArgs, if_neg]
    rw [length_spawnPayload short]
    simp [argvBuf]

/-! ## A session that spawns -/

def spawningKernel : Kernel := kernelAfter (twoSessions capSpawn) [.bind 1 (ascii "registry")]

theorem spawningKernel_onRegistry : OnRegistry spawningKernel 1 0 :=
  ⟨by decide, 0, by decide +kernel, by decide +kernel, by decide +kernel⟩

/-- Without strings, the new session sees the module name. -/
theorem spawn_without_args_survives : spawned spawningKernel.sched
      (spawningKernel.send plainEnv 1 0 (spawnRequest 1 (ascii "app") [] 0 [])).sched 3 = true ∧
    ((spawningKernel.send plainEnv 1 0
        (spawnRequest 1 (ascii "app") [] 0 [])).sched.sessions 3).argv = [ascii "app"] := by
  have spawned : spawned spawningKernel.sched (spawningKernel.send plainEnv 1 0
      (spawnRequest 1 (ascii "app") [] 0 [])).sched 3 = true := by
    decide +kernel
  have survive :=
    spawn_args_survive_iff spawningKernel_onRegistry
      (by decide : (ascii "app").length ≤ 15) (by simp) spawned
  exact ⟨spawned, survive.mpr ⟨rfl, by decide⟩⟩

/-- The string `-v` arrives as six empty strings. -/
theorem spawn_with_arg_garbled : spawned spawningKernel.sched
      (spawningKernel.send plainEnv 1 0
        (spawnRequest 1 (ascii "app") [] 0 [ascii "-v"])).sched 3 = true ∧
    ((spawningKernel.send plainEnv 1 0 (spawnRequest 1 (ascii "app") [] 0
        [ascii "-v"])).sched.sessions 3).argv = ascii "app" :: replicate 6 [] := by
  decide +kernel

end KernelLane.Kern
