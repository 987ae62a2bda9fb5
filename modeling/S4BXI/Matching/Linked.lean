import S4BXI.Matching.Appends

/-!
# Linked and unlinked entries

An entry is linked at most once, by its append, so that an entry which has been
unlinked stays out of the lists.
-/

namespace S4BXI

open Lib

/-- The entry is in no list and nobody is appending it. -/
structure Gone (s : State) (me : MeId) : Prop where
  lists : ∀ pt list, me ∉ (s.pts pt).listOf list
  pends : ∀ index op, s.Pends index op → op.appending ≠ some me

/-- Every list has each of its entries once. -/
def LinkedOnce (s : State) : Prop :=
  ∀ pt list, ((s.pts pt).listOf list).Nodup

/-- The entry is being appended or has just been allocated. -/
def Entering (s : State) (me : MeId) : Prop :=
  me = s.nextMe ∨ ∃ index op, s.Pends index op ∧ op.appending = some me

/-- How a step changes the lists: entries leave them, or an entry which is
entering is linked at the end of one of them. -/
inductive Links (s after : State) : Prop where
  | fewer (lists : ∀ pt list,
      ((after.pts pt).listOf list).Sublist ((s.pts pt).listOf list))
  | linked {me : MeId} {pt : PtId} {list : PtlList} (entering : Entering s me)
      (lists : ∀ other kind, (after.pts other).listOf kind =
        if other = pt ∧ kind = list then (s.pts other).listOf kind ++ [me]
        else (s.pts other).listOf kind)

section Steps

variable {sys : Sys} {s after : State} {index : ThreadId} {label : Label}

theorem Pairing.links (pairing : Pairing sys s index label after) :
    Links s after := by
  cases pairing with
  | halt => exact .fewer fun _ _ => .refl _
  | @run self op rest new after found pairs =>
      cases pairs with
      | shrink idle nothing shrinks => exact .fewer shrinks.lists
      | arrive nothing fresh matched arrives =>
          exact .fewer fun pt list => (arrives.lists pt list).symm ▸ .refl _
      | @insert me position scanned =>
          apply Links.linked
          · exact .inr ⟨index, _, ⟨_, found, List.mem_cons_self⟩, rfl⟩
          · exact fun other kind => appendInsert_listOf s me other kind
      | stop => exact .fewer fun _ _ => .refl _
      | @overflow me start position header matched search deposited =>
          apply Links.fewer
          intro pt list
          simp only [State.emit, State.modPt, State.modMe,
            Function.update_apply]
          split
          · rename_i same
            subst same
            cases list <;> exact .refl _
          · exact .refl _
      | consumed => exact .fewer fun _ _ => .refl _
  | start found nothing shrinks => exact .fewer shrinks.lists
  | call found owned pairs =>
      cases pairs with
      | shrink nothing shrinks => exact .fewer shrinks.lists
      | ptAlloc pts mes nextMe log reqs =>
          apply Links.fewer
          intro pt list
          simp only [pts, Function.update_apply]
          split
          · cases list <;> exact List.nil_sublist _
          · exact .refl _
      | ptFree taken pts used nextMe log reqs =>
          apply Links.fewer
          intro pt list
          simp only [pts, Function.update_apply]
          split
          · cases list <;> exact List.nil_sublist _
          · exact .refl _
      | appendPriority taken => exact .fewer fun _ _ => .refl _
      | @appendOverflow ni slot pt me userPtr taken =>
          apply Links.linked
          · exact .inl rfl
          · intro other kind
            exact appendInsert_listOf (newMe s pt me .overflow userPtr)
              s.nextMe other kind

/-- An append which is pending after a step was pending before it, or the step
is its call. -/
theorem Pairing.entering (pairing : Pairing sys s index label after)
    {other : ThreadId} {op : Op} {me : MeId} (pends : after.Pends other op)
    (appends : op.appending = some me) : Entering s me := by
  have earlier : ∀ {op'}, s.Pends other op' → op'.appending = some me →
      Entering s me := fun pends' appends' => .inr ⟨other, _, pends', appends'⟩
  cases pairing with
  | halt => exact earlier pends appends
  | @run self first rest new after found pairs =>
      cases pairs with
      | shrink idle nothing shrinks =>
          exact earlier (pends_silent found nothing pends appends) appends
      | arrive nothing fresh matched arrives =>
          exact earlier (pends_silent found nothing pends appends) appends
      | insert scanned =>
          exact earlier (pends_silent found (issueLink_every fun _ _ _ => rfl)
            pends appends) appends
      | stop => exact earlier (pends_silent found (by simp) pends appends) appends
      | @overflow me' start position header matched search deposited =>
          rcases pends_run found pends with
            ⟨differs, kept⟩ | ⟨rfl, added | ⟨-, kept⟩⟩
          · exact earlier kept appends
          · have same : me = me' := by
              rcases List.mem_append.mp added with first | last
              · rcases List.mem_cons.mp first with rfl | issued
                · cases appends
                · rw [issueEvent_every (P := (·.appending = none))
                    (fun _ => rfl) op issued] at appends
                  cases appends
              · rw [List.mem_singleton.mp last] at appends
                split at appends <;> exact (Option.some.inj appends).symm
            subst same
            exact earlier ⟨_, found, List.mem_cons_self⟩ rfl
          · exact earlier kept appends
      | consumed =>
          exact earlier (pends_silent found (by simp) pends appends) appends
  | start found nothing shrinks =>
      exact earlier (pends_idle nothing pends appends) appends
  | call found owned pairs =>
      cases pairs with
      | shrink nothing shrinks =>
          exact earlier (pends_idle nothing pends appends) appends
      | ptAlloc pts mes nextMe log reqs =>
          exact earlier (pends_idle (by simp) pends appends) appends
      | ptFree taken pts used nextMe log reqs =>
          exact earlier (pends_idle (by simp) pends appends) appends
      | appendPriority taken =>
          rcases pends.of_set with ⟨differs, kept⟩ | ⟨same, member⟩
          · exact earlier kept appends
          · rw [List.mem_singleton.mp member] at appends
            exact .inl (Option.some.inj appends).symm
      | appendOverflow taken =>
          exact earlier (pends_idle (issueLink_every fun _ _ _ => rfl) pends
            appends) appends

/-- An entry which is entering is not linked. -/
theorem Entering.unlinked {me : MeId} (entering : Entering s me)
    (appending : Appending sys s) (wellScoped : WellScoped s) (pt : PtId)
    (list : PtlList) : me ∉ (s.pts pt).listOf list := by
  rcases entering with rfl | ⟨index, op, pends, appends⟩
  · intro member
    have small := (wellScoped.tables.pts pt).entries list _ member
    exact Nat.lt_irrefl _ small
  · exact appending.unlinked pends appends pt list

theorem LinkedOnce.links (once : LinkedOnce s) (appending : Appending sys s)
    (wellScoped : WellScoped s) (links : Links s after) : LinkedOnce after := by
  intro pt list
  cases links with
  | fewer lists => exact (once pt list).sublist (lists pt list)
  | linked entering lists =>
      rw [lists]
      split
      · refine List.nodup_append.mpr ⟨once pt list, List.nodup_singleton _, ?_⟩
        intro other linked last member equal
        rw [equal, List.mem_singleton.mp member] at linked
        exact entering.unlinked appending wellScoped pt list linked
      · exact once pt list

/-- An unlinked entry stays unlinked. -/
theorem Gone.step {me : MeId} (gone : Gone s me) (old : me < s.nextMe)
    (pairing : Pairing sys s index label after) : Gone after me := by
  have outside : ¬Entering s me := by
    rintro (rfl | ⟨other, op, pends, appends⟩)
    · exact Nat.lt_irrefl _ old
    · exact gone.pends other op pends appends
  constructor
  · intro pt list member
    cases pairing.links with
    | fewer lists => exact gone.lists pt list ((lists pt list).subset member)
    | linked entering lists =>
        rw [lists] at member
        split at member
        · rcases List.mem_append.mp member with linked | last
          · exact gone.lists pt list linked
          · rw [List.mem_singleton.mp last] at outside
            exact outside entering
        · exact gone.lists pt list member
  · intro other op pends appends
    exact outside (pairing.entering pends appends)

/-- Lists along any run. -/
theorem ReachedBy.linkedOnce {allowed : State → Label → Prop}
    (reached : ReachedBy sys allowed s) : LinkedOnce s := by
  apply reached.invariant_of_reached
  · intro pt list
    cases list <;> exact .nil
  · intro before after label earlier once _ stepped
    have wellScoped := ReachedBy.wellScoped earlier
    exact once.links (ReachedBy.appending earlier) wellScoped
      ((step_advances stepped).pairing wellScoped.ops).links

end Steps

end S4BXI
