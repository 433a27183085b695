import GelfCourier.Proofs.Concurrent.Numbered
import GelfCourier.Proofs.Dispatch.LateRecords

/-!
Shutdowns that overlap. The first call that closes the queue takes all workers over, and unless it
is given up it goes on only when each of them has left. Every other call finds nobody to wait for:
it goes on at once, and may close the transport while a worker still sends.
-/

set_option autoImplicit false

namespace GelfCourier

/-- The workers that a call waits for. -/
def Call.awaited (call : Call) : List Nat :=
  match call.phase with
  | .joining workers => workers
  | _ => []

/-- Whether a shutdown has nobody left to wait for: it is about to return, or it has returned and
the transport is about to be closed, or the whole call is over. -/
def Call.isPast (call : Call) : Bool :=
  match call.phase with
  | .joining [] => true
  | .closing => true
  | .finished => call.kind ≠ .flush
  | _ => false

namespace Dispatch

variable {ρ : Type}

/-- The call that takes workers over in a step. -/
def takes? (dispatch : Dispatch ρ) : Step ρ → Option Nat
  | .advance number =>
    match (dispatch.call? number).map Call.phase with
    | some .stopping => if dispatch.unclaimed = [] then none else some number
    | _ => none
  | _ => none

/-- The call that is given up in a step while it waits for workers. -/
def givesUp? (dispatch : Dispatch ρ) : Step ρ → Option Nat
  | .cancel number =>
    match (dispatch.call? number).map Call.awaited with
    | some (_ :: _) => some number
    | _ => none
  | _ => none

def takers (history : List (Dispatch ρ × Step ρ)) : List Nat :=
  Run.observed takes? history

def givenUp (history : List (Dispatch ρ × Step ρ)) : List Nat :=
  Run.observed givesUp? history

variable {dispatch after : Dispatch ρ} {step : Step ρ} {number : Nat} {call : Call}

/-! ### Finding calls -/

theorem call?_setPhase (dispatch : Dispatch ρ) (number : Nat) (phase : CallPhase) (other : Nat) :
    (dispatch.setPhase number phase).call? other =
      if other = number then (dispatch.call? number).map ({ · with phase })
      else dispatch.call? other :=
  Numbered.find?_map_update Call.number (fun call ↦ { call with phase }) number
    (fun _ hnumber ↦ hnumber) dispatch.calls other

theorem call?_begin (kind : CallKind) (hfresh : dispatch.call? number = none) (other : Nat) :
    (dispatch.begin number kind).call? other =
      if other = number then some ⟨number, kind, firstPhase kind⟩ else dispatch.call? other :=
  Numbered.find?_append_singleton Call.number dispatch.calls ⟨number, kind, firstPhase kind⟩ other
    hfresh

theorem call?_cancel (dispatch : Dispatch ρ) (number other : Nat) :
    (dispatch.cancel number).call? other =
      if other = number then none else dispatch.call? other := by
  unfold cancel call?
  rw [List.find?_filter]
  by_cases hother : other = number
  · rw [if_pos hother, List.find?_eq_none]
    simp [hother]
  · rw [if_neg hother]
    congr 1
    funext call
    by_cases hnumber : call.number = other
    · simp [hnumber, hother]
    · simp [hnumber]

/-! ### What a step does to calls and workers -/

/-- One step, by what it does to the calls. -/
inductive Turns (dispatch : Dispatch ρ) : Step ρ → Dispatch ρ → Prop where
  | work {step : Step ρ} {after : Dispatch ρ} (hcalls : after.calls = dispatch.calls)
      (hunclaimed : after.unclaimed = dispatch.unclaimed) (htakes : dispatch.takes? step = none)
      (hgives : dispatch.givesUp? step = none) : Turns dispatch step after
  | begin (number : Nat) (kind : CallKind) (hfresh : dispatch.call? number = none) :
      Turns dispatch (.begin number kind) (dispatch.begin number kind)
  | advance (number : Nat) (call : Call) (hcall : dispatch.call? number = some call)
      (hready : dispatch.canAdvance call = true) :
      Turns dispatch (.advance number) (dispatch.advance call)
  | cancel (number : Nat) (call : Call) (hcall : dispatch.call? number = some call) :
      Turns dispatch (.cancel number) (dispatch.cancel number)

theorem turns_take (dispatch : Dispatch ρ) (w : Nat) :
    dispatch.Turns (.take w) (dispatch.take w) := by
  unfold take
  split <;> exact .work rfl rfl rfl rfl

theorem turns_settle (dispatch : Dispatch ρ) (w : Nat) (succeeded : Bool) :
    dispatch.Turns (.settle w succeeded) (dispatch.settle w succeeded) := by
  cases succeeded <;> exact .work rfl rfl rfl rfl

theorem turns_of_step? (h : dispatch.step? step = some after) : dispatch.Turns step after := by
  cases step with
  | store record => cases h; exact .work rfl rfl rfl rfl
  | signal =>
    simp only [step?] at h
    split at h <;> cases h
    exact .work rfl rfl rfl rfl
  | ask w =>
    simp only [step?] at h
    split at h <;> cases h
    exact .work rfl rfl rfl rfl
  | take w =>
    simp only [step?] at h
    split at h <;> cases h
    exact turns_take dispatch w
  | settle w succeeded =>
    simp only [step?] at h
    split at h <;> cases h
    exact turns_settle dispatch w succeeded
  | crash w =>
    simp only [step?] at h
    split at h <;> cases h
    exact .work rfl rfl rfl rfl
  | begin number kind =>
    simp only [step?] at h
    split at h
    · cases h
    · next hfresh => cases h; exact .begin number kind (by simpa using hfresh)
  | advance number =>
    simp only [step?] at h
    split at h
    · cases h
    · next call hcall =>
      split at h
      · next hready => cases h; exact .advance number call hcall hready
      · cases h
  | cancel number =>
    simp only [step?] at h
    split at h
    · next hknown =>
      obtain ⟨call, hcall⟩ := Option.isSome_iff_exists.mp hknown
      cases h
      exact .cancel number call hcall
    · cases h

/-- A worker that has left stays away. -/
theorem Moves.hasExited_eq_false {event : Option (Event ρ)} (hmoves : dispatch.Moves event after)
    {w : Nat} (hlive : (after.worker w).hasExited = false) :
    (dispatch.worker w).hasExited = false := by
  have hset : ∀ (between : Dispatch ρ) (new : Worker ρ) (other : Nat),
      between.workers = dispatch.workers → (dispatch.worker other).hasExited = false →
      ((between.setWorker other new).worker w).hasExited = false →
      (dispatch.worker w).hasExited = false := by
    intro between new other hworkers hother hafter
    have hsame : ∀ one, between.worker one = dispatch.worker one := by
      intro one
      unfold Dispatch.worker
      rw [hworkers]
    rw [worker_setWorker (by rw [hsame]; exact hother)] at hafter
    by_cases hw : w = other
    · rw [hw]
      exact hother
    · rw [if_neg hw, hsame] at hafter
      exact hafter
  cases hmoves with
  | store record => exact hlive
  | signal hpending => exact hlive
  | ask w hidle => exact hset _ _ _ rfl (by rw [hidle]; rfl) hlive
  | start w record hasking => exact hset _ _ _ rfl (by rw [hasking]; rfl) hlive
  | stop w hasking => exact hset _ _ _ rfl (by rw [hasking]; rfl) hlive
  | deliver w record hsending => exact hset _ _ _ rfl (by rw [hsending]; rfl) hlive
  | fail w record hsending => exact hset _ _ _ rfl (by rw [hsending]; rfl) hlive
  | crash w record hsending => exact hset _ _ _ rfl (by rw [hsending]; rfl) hlive
  | call calls => exact hlive
  | close calls => exact hlive

theorem isDeserted_of_hasExited (hall : ∀ w, (dispatch.worker w).hasExited = true) :
    dispatch.isDeserted = true := by
  refine List.all_eq_true.mpr fun worker hworker ↦ ?_
  obtain ⟨w, hbound, rfl⟩ := List.mem_iff_getElem.mp hworker
  have hexited := hall w
  rwa [Dispatch.worker, List.getD_eq_getElem?_getD, List.getElem?_eq_getElem hbound] at hexited

/-! ### Who waits for the workers -/

/-- Before any call has taken the workers over no call is past its wait. Afterwards the call that
did waits for every worker that is left, unless it was given up. -/
inductive Claimed (takers givenUp : List Nat) (dispatch : Dispatch ρ) : Prop where
  | nobody (htakers : takers = [])
      (hunclaimed : dispatch.unclaimed = List.range dispatch.workers.length)
      (hsome : dispatch.workers ≠ [])
      (hcalls : ∀ number call, dispatch.call? number = some call →
        call.isPast = false ∧ call.awaited = [])
  | taken (taker : Nat) (htakers : takers = [taker]) (hunclaimed : dispatch.unclaimed = [])
      (hawaited : taker ∈ givenUp ∨ ∀ w, (dispatch.worker w).hasExited = false →
        ∃ call, dispatch.call? taker = some call ∧ w ∈ call.awaited)

/-- A shutdown alone does not look whether records are pending. -/
def Fits (dispatch : Dispatch ρ) : Prop :=
  ∀ number call, dispatch.call? number = some call → call.phase = .flushing →
    call.kind ≠ .shutdown

theorem Fits.turns (h : dispatch.Fits) (hturns : dispatch.Turns step after) : after.Fits := by
  have hset : ∀ (between : Dispatch ρ) (changed : Nat) (phase : CallPhase),
      between.calls = dispatch.calls → phase ≠ .flushing →
      (between.setPhase changed phase).Fits := by
    intro between changed phase hcalls hphase number call hcall hflushing
    have hsame : ∀ one, between.call? one = dispatch.call? one := fun one ↦ by
      unfold call?
      rw [hcalls]
    rw [call?_setPhase, hsame, hsame] at hcall
    split at hcall
    · obtain ⟨old, -, rfl⟩ := Option.map_eq_some_iff.mp hcall
      exact absurd hflushing hphase
    · exact h number call hcall hflushing
  cases hturns with
  | work hcalls hunclaimed htakes hgives =>
    intro number call hcall
    unfold call? at hcall
    rw [hcalls] at hcall
    exact h number call hcall
  | begin number kind hfresh =>
    intro other call hcall hflushing
    rw [call?_begin kind hfresh] at hcall
    split at hcall
    · cases hcall
      cases kind <;> first | exact CallKind.noConfusion | cases hflushing
    · exact h other call hcall hflushing
  | cancel number call hcall =>
    intro other call hcall
    rw [call?_cancel] at hcall
    split at hcall
    · cases hcall
    · exact h other call hcall
  | advance number call hcall hready =>
    unfold advance
    split
    · split
      · exact hset _ _ _ rfl (by cases call.kind <;> exact CallPhase.noConfusion)
      · exact h
    · exact hset _ _ _ rfl CallPhase.noConfusion
    · exact hset _ _ _ rfl (by cases call.kind <;> exact CallPhase.noConfusion)
    · exact hset _ _ _ rfl CallPhase.noConfusion
    · exact hset _ _ _ rfl CallPhase.noConfusion
    · exact h

namespace Claimed

variable {takers givenUp : List Nat} {taker : Nat}

theorem start (workers : Nat) : Claimed [] [] (Dispatch.start workers : Dispatch ρ) := by
  have hlength : (Dispatch.start workers : Dispatch ρ).workers.length = max workers 1 :=
    List.length_replicate
  refine .nobody rfl ?_ (fun hnone ↦ ?_) fun number call hcall ↦ ?_
  · rw [hlength]
    rfl
  · rw [hnone, List.length_nil] at hlength
    omega
  · cases hcall

/-- The calls stay as they are, and no worker comes back. -/
theorem work (h : Claimed takers givenUp dispatch) (hcalls : after.calls = dispatch.calls)
    (hunclaimed : after.unclaimed = dispatch.unclaimed)
    (hlength : after.workers.length = dispatch.workers.length)
    (hlive : ∀ w, (after.worker w).hasExited = false → (dispatch.worker w).hasExited = false) :
    Claimed takers givenUp after := by
  have hsame : ∀ number, after.call? number = dispatch.call? number := fun number ↦ by
    unfold call?
    rw [hcalls]
  cases h with
  | nobody htakers hrange hsome hearly =>
    refine .nobody htakers ?_ ?_ fun number call hcall ↦ hearly number call (hsame number ▸ hcall)
    · rw [hunclaimed, hlength]
      exact hrange
    · rw [← List.length_pos_iff, hlength]
      exact List.length_pos_iff.mpr hsome
  | taken taker htakers hnone hawaited =>
    refine .taken taker htakers (hunclaimed.trans hnone) (hawaited.imp_right fun hall w hw ↦ ?_)
    rw [hsame]
    exact hall w (hlive w hw)

theorem begin (h : Claimed takers givenUp dispatch) (kind : CallKind)
    (hfresh : dispatch.call? number = none) :
    Claimed takers givenUp (dispatch.begin number kind) := by
  cases h with
  | nobody htakers hrange hsome hearly =>
    refine .nobody htakers hrange hsome fun other call hcall ↦ ?_
    rw [call?_begin kind hfresh] at hcall
    split at hcall
    · cases hcall
      cases kind <;> exact ⟨rfl, rfl⟩
    · exact hearly other call hcall
  | taken taker htakers hnone hawaited =>
    refine .taken taker htakers hnone (hawaited.imp_right fun hall w hw ↦ ?_)
    obtain ⟨call, hcall, hmem⟩ := hall w hw
    have hne : taker ≠ number := by
      rintro rfl
      rw [hfresh] at hcall
      cases hcall
    exact ⟨call, by rw [call?_begin kind hfresh, if_neg hne, hcall], hmem⟩

theorem cancel (h : Claimed takers givenUp dispatch) (hcall : dispatch.call? number = some call) :
    Claimed takers (givenUp ++ (dispatch.givesUp? (.cancel number)).toList)
      (dispatch.cancel number) := by
  cases h with
  | nobody htakers hrange hsome hearly =>
    refine .nobody htakers hrange hsome fun other found hfound ↦ ?_
    rw [call?_cancel] at hfound
    split at hfound
    · cases hfound
    · exact hearly other found hfound
  | taken taker htakers hnone hawaited =>
    refine .taken taker htakers hnone ?_
    rcases hawaited with hgiven | hall
    · exact .inl (List.mem_append_left _ hgiven)
    by_cases hsame : taker = number
    · subst hsame
      cases hwaits : call.awaited with
      | nil =>
        -- The taker has nobody left to wait for.
        refine .inr fun w hw ↦ ?_
        obtain ⟨found, hfound, hmem⟩ := hall w hw
        rw [hcall] at hfound
        cases hfound
        rw [hwaits] at hmem
        cases hmem
      | cons first rest =>
        have hgives : dispatch.givesUp? (.cancel taker) = some taker := by
          simp only [givesUp?, hcall, Option.map_some, hwaits]
        rw [hgives]
        exact .inl (List.mem_append_right _ List.mem_cons_self)
    · refine .inr fun w hw ↦ ?_
      rw [call?_cancel, if_neg hsame]
      exact hall w hw

/-- Assumes: workers that are not all unclaimed. A call goes on, and waits for as many of the
workers that are left as before. -/
theorem setPhase_of_taken {between : Dispatch ρ} (hcall : dispatch.call? number = some call)
    (hcalls : between.calls = dispatch.calls) (hworkers : between.workers = dispatch.workers)
    (hnone : between.unclaimed = []) (phase : CallPhase)
    (hkept : ∀ w ∈ call.awaited, (dispatch.worker w).hasExited = false →
      w ∈ ({ call with phase } : Call).awaited)
    (hawaited : taker ∈ givenUp ∨ ∀ w, (dispatch.worker w).hasExited = false →
      ∃ call, dispatch.call? taker = some call ∧ w ∈ call.awaited) :
    Claimed [taker] givenUp (between.setPhase number phase) := by
  refine .taken taker rfl hnone (hawaited.imp_right fun hall w hw ↦ ?_)
  have hlive : (dispatch.worker w).hasExited = false := by
    unfold Dispatch.worker at hw ⊢
    rw [← hworkers]
    exact hw
  have hlookup : ∀ one, between.call? one = dispatch.call? one := fun one ↦ by
    unfold call?
    rw [hcalls]
  obtain ⟨found, hfound, hmem⟩ := hall w hlive
  rw [call?_setPhase, hlookup, hlookup]
  by_cases hsame : taker = number
  · rw [hsame, hcall] at hfound
    cases hfound
    exact ⟨{ call with phase }, by rw [if_pos hsame, hcall]; rfl, hkept w hmem hlive⟩
  · exact ⟨found, by rw [if_neg hsame, hfound], hmem⟩

/-- Assumes: workers that nobody has taken over. A call goes on before it closes the queue. -/
theorem setPhase_of_nobody (hrange : dispatch.unclaimed = List.range dispatch.workers.length)
    (hsome : dispatch.workers ≠ []) (hearly : ∀ number call, dispatch.call? number = some call →
      call.isPast = false ∧ call.awaited = [])
    (hcall : dispatch.call? number = some call) (phase : CallPhase)
    (hphase : ({ call with phase } : Call).isPast = false ∧
      ({ call with phase } : Call).awaited = []) :
    Claimed [] givenUp (dispatch.setPhase number phase) := by
  refine .nobody rfl hrange hsome fun other found hfound ↦ ?_
  rw [call?_setPhase] at hfound
  split at hfound
  · rw [hcall] at hfound
    cases hfound
    exact hphase
  · exact hearly other found hfound

/-- Assumes: a call that does not take workers over in this step. -/
theorem takes?_advance_eq_none (hcall : dispatch.call? number = some call)
    (hphase : call.phase ≠ .stopping ∨ dispatch.unclaimed = []) :
    dispatch.takes? (.advance number) = none := by
  simp only [takes?, hcall, Option.map_some]
  split
  · next hstopping =>
    rw [if_pos]
    exact hphase.resolve_left fun hne ↦ hne (Option.some.inj hstopping)
  · rfl

/-- Assumes: workers that are not all unclaimed. A call that waits for none of them goes on. -/
theorem setPhase_of_idle {between : Dispatch ρ} (hcall : dispatch.call? number = some call)
    (hcalls : between.calls = dispatch.calls) (hworkers : between.workers = dispatch.workers)
    (hnone : between.unclaimed = []) (phase : CallPhase) (hidle : call.awaited = [])
    (hawaited : taker ∈ givenUp ∨ ∀ w, (dispatch.worker w).hasExited = false →
      ∃ call, dispatch.call? taker = some call ∧ w ∈ call.awaited) :
    Claimed [taker] givenUp (between.setPhase number phase) := by
  refine setPhase_of_taken hcall hcalls hworkers hnone phase (fun w hw ↦ ?_) hawaited
  rw [hidle] at hw
  cases hw

theorem flush (h : Claimed takers givenUp dispatch) (hfits : dispatch.Fits)
    (hcall : dispatch.call? number = some call) (hphase : call.phase = .flushing) :
    Claimed takers givenUp (dispatch.setPhase number (afterFlush call.kind)) := by
  have hidle : call.awaited = [] := by rw [Call.awaited, hphase]
  have hkind := hfits number call hcall hphase
  cases h with
  | nobody htakers hrange hsome hearly =>
    subst htakers
    refine setPhase_of_nobody hrange hsome hearly hcall _ ?_
    cases hcases : call.kind with
    | flush => exact ⟨by simp [Call.isPast, afterFlush], rfl⟩
    | shutdown => exact absurd hcases hkind
    | flushAndClose => exact ⟨rfl, rfl⟩
  | taken taker htakers hnone hawaited =>
    subst htakers
    exact setPhase_of_idle hcall rfl rfl hnone _ hidle hawaited

/-- The first call that closes the queue takes all workers over. -/
theorem stop (h : Claimed takers givenUp dispatch) (hcall : dispatch.call? number = some call)
    (hphase : call.phase = .stopping) :
    Claimed (takers ++ (dispatch.takes? (.advance number)).toList) givenUp
      ({ dispatch with queue := dispatch.queue.close, unclaimed := [] }.setPhase number
        (.joining dispatch.unclaimed)) := by
  cases h with
  | nobody htakers hrange hsome hearly =>
    have hunclaimed : dispatch.unclaimed ≠ [] := by
      rw [hrange]
      exact fun hnil ↦ hsome (List.length_eq_zero_iff.mp (List.range_eq_nil.mp hnil))
    have htakes : dispatch.takes? (.advance number) = some number := by
      simp only [takes?, hcall, Option.map_some, hphase, if_neg hunclaimed]
    rw [htakes, htakers]
    refine .taken number rfl rfl (.inr fun w hw ↦ ?_)
    refine ⟨{ call with phase := .joining dispatch.unclaimed }, ?_, ?_⟩
    · rw [call?_setPhase, if_pos rfl]
      exact congrArg (Option.map _) hcall
    · change w ∈ dispatch.unclaimed
      rw [hrange, List.mem_range]
      refine Decidable.byContradiction fun hbeyond ↦ ?_
      change (dispatch.worker w).hasExited = false at hw
      rw [Dispatch.worker, List.getD_eq_getElem?_getD,
        List.getElem?_eq_none (Nat.le_of_not_lt hbeyond)] at hw
      cases hw
  | taken taker htakers hnone hawaited =>
    have hidle : call.awaited = [] := by rw [Call.awaited, hphase]
    rw [takes?_advance_eq_none hcall (.inr hnone), Option.toList_none, List.append_nil]
    subst htakers
    refine setPhase_of_idle hcall ?calls ?workers ?unclaimed _ hidle hawaited
    case calls => rfl
    case workers => rfl
    case unclaimed => rfl

/-- A call that is past its stop goes on. -/
theorem goOn (h : Claimed takers givenUp dispatch) (hcall : dispatch.call? number = some call)
    (hpast : call.isPast = true ∨ call.awaited ≠ []) (phase : CallPhase)
    (hkept : ∀ w ∈ call.awaited, (dispatch.worker w).hasExited = false →
      w ∈ ({ call with phase } : Call).awaited) :
    Claimed takers givenUp (dispatch.setPhase number phase) := by
  cases h with
  | nobody htakers hrange hsome hearly =>
    obtain ⟨hbefore, hidle⟩ := hearly number call hcall
    rcases hpast with hpast | hwaits
    · rw [hbefore] at hpast
      cases hpast
    · exact absurd hidle hwaits
  | taken taker htakers hnone hawaited =>
    subst htakers
    exact setPhase_of_taken hcall rfl rfl hnone phase hkept hawaited

theorem advance (h : Claimed takers givenUp dispatch) (hfits : dispatch.Fits)
    (hcall : dispatch.call? number = some call) (hready : dispatch.canAdvance call = true) :
    Claimed (takers ++ (dispatch.takes? (.advance number)).toList) givenUp
      (dispatch.advance call) := by
  have hnumber : call.number = number := by simpa using List.find?_some hcall
  have hquiet (hphase : call.phase ≠ .stopping) :
      takers ++ (dispatch.takes? (.advance number)).toList = takers := by
    rw [takes?_advance_eq_none hcall (.inl hphase)]
    exact List.append_nil takers
  unfold Dispatch.advance
  rw [hnumber]
  cases hphase : call.phase with
  | flushing =>
    rw [hquiet (by rw [hphase]; exact CallPhase.noConfusion)]
    dsimp only
    split
    · exact h.flush hfits hcall hphase
    · exact h
  | stopping => exact h.stop hcall hphase
  | joining waited =>
    rw [hquiet (by rw [hphase]; exact CallPhase.noConfusion)]
    have hwaits : call.awaited = waited := by rw [Call.awaited, hphase]
    cases waited with
    | nil =>
      refine h.goOn hcall (.inl (by rw [Call.isPast, hphase])) _ fun w hw _ ↦ ?_
      rw [hwaits] at hw
      cases hw
    | cons first rest =>
      refine h.goOn hcall (.inr (by rw [hwaits]; exact List.cons_ne_nil _ _)) _ fun w hw hlive ↦ ?_
      have hexited : (dispatch.worker first).hasExited = true := by
        rw [canAdvance, hphase] at hready
        exact hready
      rw [hwaits] at hw
      rcases List.mem_cons.mp hw with rfl | hrest
      · rw [hexited] at hlive
        cases hlive
      · exact hrest
  | closing =>
    rw [hquiet (by rw [hphase]; exact CallPhase.noConfusion)]
    refine h.goOn hcall (.inl (by rw [Call.isPast, hphase])) _ fun w hw _ ↦ ?_
    rw [Call.awaited, hphase] at hw
    cases hw
  | finished =>
    rw [canAdvance, hphase] at hready
    cases hready

theorem of_step? (h : Claimed takers givenUp dispatch) (hfits : dispatch.Fits)
    (possible : dispatch.step? step = some after) :
    Claimed (takers ++ (dispatch.takes? step).toList)
      (givenUp ++ (dispatch.givesUp? step).toList) after := by
  cases turns_of_step? possible with
  | work hcalls hunclaimed htakes hgives =>
    have hmoves := moves_of_step? possible
    rw [htakes, hgives, Option.toList_none, List.append_nil, List.append_nil]
    exact h.work hcalls hunclaimed hmoves.length_workers fun w hw ↦ hmoves.hasExited_eq_false hw
  | begin number kind hfresh =>
    simp only [takes?, givesUp?, Option.toList_none, List.append_nil]
    exact h.begin kind hfresh
  | advance number call hcall hready =>
    have hgives : dispatch.givesUp? (.advance number) = none := rfl
    rw [hgives, Option.toList_none, List.append_nil]
    exact h.advance hfits hcall hready
  | cancel number call hcall =>
    have htakes : dispatch.takes? (.cancel number) = none := rfl
    rw [htakes, Option.toList_none, List.append_nil]
    exact h.cancel hcall

end Claimed

/-! ### Whole runs -/

section Runs

variable {workers : Nat} {history : List (Dispatch ρ × Step ρ)}

theorem claimed (run : Run step? (start workers) history dispatch) :
    Claimed (takers history) (givenUp history) dispatch ∧ dispatch.Fits := by
  induction run with
  | start => exact ⟨.start workers, fun number call hcall ↦ by cases hcall⟩
  | step run possible ih =>
    obtain ⟨hclaimed, hfits⟩ := ih
    rw [takers, givenUp, Run.observed_append_singleton, Run.observed_append_singleton]
    exact ⟨hclaimed.of_step? hfits possible, hfits.turns (turns_of_step? possible)⟩

/-- Another call took the workers over, and it was given up, or it still waits for them. -/
def IsOvertaken (history : List (Dispatch ρ × Step ρ)) (dispatch : Dispatch ρ) (number : Nat) :
    Prop :=
  ∃ taker ∈ takers history, taker ∈ givenUp history ∨
    taker ≠ number ∧ ∃ call, dispatch.call? taker = some call ∧ call.awaited ≠ []

/-- Whether calls go on before all workers have left. -/
structure Overseen (history : List (Dispatch ρ × Step ρ)) (dispatch : Dispatch ρ) : Prop where
  /-- Workers are taken over once. -/
  takers_le : (takers history).length ≤ 1
  /-- The call that took them over waits for every worker that is left. -/
  awaited : ∀ taker ∈ takers history, taker ∉ givenUp history →
    ∀ w, (dispatch.worker w).hasExited = false →
      ∃ call, dispatch.call? taker = some call ∧ w ∈ call.awaited
  /-- A shutdown returns when all workers have left, but for one that was overtaken. -/
  returning : ∀ number call, dispatch.call? number = some call → call.isPast = true →
    dispatch.isDeserted = true ∨ IsOvertaken history dispatch number
  /-- The transport is closed when no send is under way, but for a close that was overtaken. -/
  closing : ∀ number call, dispatch.call? number = some call → call.phase = .closing →
    dispatch.inFlight = [] ∨ IsOvertaken history dispatch number

/-- In every run, however calls overlap and whichever of them are given up, a shutdown returns early
or closes the transport under a send only where another call has taken its workers. -/
theorem overseen_of_run (run : Run step? (start workers) history dispatch) :
    Overseen history dispatch := by
  obtain ⟨hclaimed, -⟩ := claimed run
  have hreturning : ∀ number call, dispatch.call? number = some call → call.isPast = true →
      dispatch.isDeserted = true ∨ IsOvertaken history dispatch number := by
    intro number call hcall hpast
    cases hclaimed with
    | nobody htakers hrange hsome hearly =>
      rw [(hearly number call hcall).1] at hpast
      cases hpast
    | taken taker htakers hnone hawaited =>
      have htaker : taker ∈ takers history := by
        rw [htakers]
        exact List.mem_cons_self
      rcases hawaited with hgiven | hall
      · exact .inr ⟨taker, htaker, .inl hgiven⟩
      by_cases hexited : ∀ w, (dispatch.worker w).hasExited = true
      · exact .inl (isDeserted_of_hasExited hexited)
      · obtain ⟨w, hw⟩ := Classical.not_forall.mp hexited
        obtain ⟨found, hfound, hmem⟩ := hall w (Bool.eq_false_iff.mpr hw)
        have hwaits : found.awaited ≠ [] := List.ne_nil_of_mem hmem
        refine .inr ⟨taker, htaker, .inr ⟨?_, found, hfound, hwaits⟩⟩
        -- A call that still waits is not past its wait.
        rintro rfl
        rw [hcall] at hfound
        cases hfound
        unfold Call.awaited at hwaits
        unfold Call.isPast at hpast
        cases hphase : call.phase with
        | joining waited =>
          rw [hphase] at hwaits hpast
          cases waited with
          | nil => exact hwaits rfl
          | cons first rest => cases hpast
        | flushing => rw [hphase] at hwaits; exact hwaits rfl
        | stopping => rw [hphase] at hwaits; exact hwaits rfl
        | closing => rw [hphase] at hwaits; exact hwaits rfl
        | finished => rw [hphase] at hwaits; exact hwaits rfl
  refine ⟨?_, ?_, hreturning, fun number call hcall hphase ↦ ?_⟩
  · cases hclaimed with
    | nobody htakers => rw [htakers]; exact Nat.zero_le _
    | taken taker htakers => rw [htakers]; exact Nat.le_refl _
  · intro taker htaker hkept w hw
    cases hclaimed with
    | nobody htakers =>
      rw [htakers] at htaker
      cases htaker
    | taken other htakers hnone hawaited =>
      rw [htakers, List.mem_singleton] at htaker
      subst htaker
      exact hawaited.resolve_left hkept w hw
  · have hpast : call.isPast = true := by rw [Call.isPast, hphase]
    exact (hreturning number call hcall hpast).imp_left inFlight_eq_nil_of_isDeserted

/-- While a worker sends, two calls flush the hook and close it. The first waits for the workers,
and the second does not. -/
def hurriedSteps (record : ρ) : List (Step ρ) :=
  [.store record, .signal, .ask 0, .take 0, .begin 1 .flushAndClose, .begin 2 .flushAndClose,
    .advance 1, .advance 1, .advance 2, .advance 2, .advance 2]

theorem overseen_of_hurriedSteps : ∃ (history : List (Dispatch String × Step String))
    (dispatch : Dispatch String),
    Run step? (start 2) history dispatch ∧ takers history = [1] ∧ givenUp history = [] ∧
      dispatch.isDeserted = true ∧ (dispatch.call? 1).map Call.phase = some .closing ∧
      Overseen history dispatch := by
  -- Then the workers leave, and the first call goes on, too.
  have hfollow : (Run.follow? step? (start 2) (hurriedSteps "a" ++
      [.advance 2, .settle 0 true, .ask 0, .take 0, .ask 1, .take 1, .advance 1, .advance 1,
        .advance 1])).map (fun taken ↦ (takers taken.1, givenUp taken.1, taken.2.isDeserted,
          (taken.2.call? 1).map Call.phase)) = some ([1], [], true, some .closing) := by
    decide
  obtain ⟨⟨history, dispatch⟩, htaken, hseen⟩ := Option.map_eq_some_iff.mp hfollow
  simp only [Prod.mk.injEq] at hseen
  obtain ⟨htakers, hgiven, hdeserted, hphase⟩ := hseen
  have run := Run.of_follow? htaken
  exact ⟨history, dispatch, run, htakers, hgiven, hdeserted, hphase, overseen_of_run run⟩

/-- The second of two calls does not wait for the workers and closes the transport, while the only
worker sends a record and the first call still waits for it. -/
theorem closes_under_send : ∃ (history : List (Dispatch String × Step String))
    (dispatch after : Dispatch String),
    Run step? (start 1) history dispatch ∧ dispatch.inFlight = ["a"] ∧
      dispatch.calls.map Call.phase = [.joining [0], .closing] ∧
      dispatch.step? (.advance 2) = some after ∧ after.inFlight = ["a"] ∧
      after.calls.map Call.phase = [.joining [0], .finished] := by
  have hfollow : (Run.follow? step? (start 1) (hurriedSteps "a")).map (fun taken ↦
      (taken.2.inFlight, taken.2.calls.map Call.phase,
        (taken.2.step? (.advance 2)).map fun after ↦
          (after.inFlight, after.calls.map Call.phase))) =
      some (["a"], [.joining [0], .closing], some (["a"], [.joining [0], .finished])) := by
    decide
  obtain ⟨⟨history, dispatch⟩, htaken, hseen⟩ := Option.map_eq_some_iff.mp hfollow
  simp only [Prod.mk.injEq] at hseen
  obtain ⟨hsending, hphases, hlast⟩ := hseen
  obtain ⟨after, hstep, hended⟩ := Option.map_eq_some_iff.mp hlast
  obtain ⟨hstill, hover⟩ := Prod.mk.inj hended
  exact ⟨history, dispatch, after, Run.of_follow? htaken, hsending, hphases, hstep, hstill, hover⟩

end Runs

end Dispatch

end GelfCourier
