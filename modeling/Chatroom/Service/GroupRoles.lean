import Chatroom.Service.Group
import Chatroom.Service.Texts

/-!
# Who may change roles, and who is the master

A change of a role is authorized when the guards that the handlers of groups put before their writes would
have been passed by the requester (`Authorized`). A group is to have exactly one master (`OneMaster`).
-/

namespace Chatroom.Service

open Lib

/-! ## The tables after a request -/

section Role

variable {collate : String → String} {u g v g' u' : ℤ} {s : Groups} {name : String}

theorem Groups.role_setRole (r : Role) : (s.setRole g v r).role g' u' =
    if g' = g ∧ u' = v then (s.role g v).map fun _ => r else s.role g' u' := by
  refine (Table.lookup_modify s.groupUser (g, v) (g', u') _).trans ?_
  simp only [Prod.mk.injEq]
  split
  case isTrue h => rw [h.1, h.2]; rfl
  case isFalse => rfl

theorem Groups.role_insertRole (r : Role) : (s.insertRole g v r).role g' u' =
    if g' = g ∧ u' = v then some ((s.role g v).getD r) else s.role g' u' := by
  refine (Table.lookup_insertIgnore s.groupUser (g, v) (g', u') r).trans ?_
  simp only [Prod.mk.injEq]
  rfl

theorem Groups.role_eraseRole : (s.eraseRole g v).role g' u' =
    if g' = g ∧ u' = v then none else s.role g' u' := by
  unfold eraseRole role
  split
  case isTrue h =>
    obtain ⟨rfl, rfl⟩ := h
    exact AList.lookup_erase _ _
  case isFalse h => exact AList.lookup_erase_ne fun heq => h (Prod.mk.inj heq)

namespace GroupOp

theorem role_create : (apply collate u s (.create name)).role g' u' =
    if s.refuses collate name = false ∧ g' = s.allGroup.next ∧ u' = u then
      some ((s.role s.allGroup.next u).getD .master) else s.role g' u' := by
  simp only [apply]
  cases s.refuses collate name with
  | true => simp only [if_true, reduceCtorEq, false_and, if_false]; rfl
  | false =>
    simp only [Bool.false_eq_true, if_false, true_and]
    exact Groups.role_insertRole .master

theorem role_request : (apply collate u s (.request g)).role g' u' =
    if g' = g ∧ u' = u then some ((s.role g u).getD .request) else s.role g' u' :=
  Groups.role_insertRole .request

theorem role_add : (apply collate u s (.add g v)).role g' u' =
    if s.Runs g u ∧ g' = g ∧ u' = v then (s.role g v).map fun _ => .normal else s.role g' u' := by
  simp only [apply]
  by_cases hruns : s.Runs g u
  · simp only [hruns, if_true, true_and]
    exact Groups.role_setRole .normal
  · simp only [hruns, if_false, false_and]

theorem role_quit : (apply collate u s (.quit g)).role g' u' =
    if (s.role g u = some .manager ∨ s.role g u = some .normal) ∧ g' = g ∧ u' = u then none
    else s.role g' u' := by
  simp only [apply]
  by_cases hquits : s.role g u = some .manager ∨ s.role g u = some .normal
  · simp only [hquits, if_true, true_and]
    exact Groups.role_eraseRole
  · simp only [hquits, if_false, false_and]

theorem role_setManager : (apply collate u s (.setManager g v)).role g' u' =
    if s.role g v = some .normal ∧ g' = g ∧ u' = v then some .manager else s.role g' u' := by
  simp only [apply]
  by_cases hnormal : s.role g v = some .normal
  · rw [if_pos hnormal, Groups.role_setRole, hnormal]
    simp
  · simp only [hnormal, if_false, false_and]

theorem role_cancelManager : (apply collate u s (.cancelManager g v)).role g' u' =
    if s.role g v = some .manager ∧ g' = g ∧ u' = v then some .normal else s.role g' u' := by
  simp only [apply]
  by_cases hmanager : s.role g v = some .manager
  · rw [if_pos hmanager, Groups.role_setRole, hmanager]
    simp
  · simp only [hmanager, if_false, false_and]

theorem role_kick : (apply collate u s (.kick g v)).role g' u' =
    if s.Kicks g u v ∧ g' = g ∧ u' = v then none else s.role g' u' := by
  simp only [apply]
  by_cases hkicks : s.Kicks g u v
  · simp only [hkicks, if_true, true_and]
    exact Groups.role_eraseRole
  · simp only [hkicks, if_false, false_and]

theorem role_delete : (apply collate u s (.delete g)).role g' u' =
    if s.role g u = some .master ∧ g' = g then none else s.role g' u' := by
  simp only [apply]
  by_cases hmaster : s.role g u = some .master
  · simp only [hmaster, if_true, true_and]
    refine (Table.lookup_deleteWhere s.groupUser _ (g', u')).trans ?_
    simp only [decide_eq_true_eq]
    rfl
  · simp only [hmaster, if_false, false_and]

/-- Only creating and deleting a group change the table of the groups. -/
theorem allGroup_apply {op : GroupOp} (hcreate : ∀ name, op ≠ .create name) (hdelete : ∀ g, op ≠ .delete g) :
    (apply collate u s op).allGroup = s.allGroup := by
  cases op with
  | create name => exact absurd rfl (hcreate name)
  | delete g => exact absurd rfl (hdelete g)
  | request g | chat g => rfl
  | add g v | quit g | setManager g v | cancelManager g v | kick g v =>
    simp only [apply]
    split <;> rfl

theorem exists_create : ((apply collate u s (.create name)).allGroup.lookup g').isSome ↔
    (s.refuses collate name = false ∧ g' = s.allGroup.next) ∨ (s.allGroup.lookup g').isSome := by
  have hlookup : (apply collate u s (.create name)).allGroup.lookup g' =
      (s.allGroup.insert (s.refuses collate name) name).lookup g' := by
    simp only [apply]
    split <;> rfl
  rw [hlookup, AutoTable.lookup_insert]
  split
  case isTrue h => simp [h]
  case isFalse h => simp [h]

theorem exists_delete : ((apply collate u s (.delete g)).allGroup.lookup g').isSome ↔
    ¬ (s.role g u = some .master ∧ g' = g) ∧ (s.allGroup.lookup g').isSome := by
  simp only [apply]
  by_cases hmaster : s.role g u = some .master
  · simp only [hmaster, if_true, true_and, AutoTable.lookup_erase]
    split
    case isTrue h => simp [h]
    case isFalse h => simp [h]
  · simp only [hmaster, if_false, false_and, not_false_eq_true, true_and]

end GroupOp

end Role

/-! ## Authorized changes -/

/-- `u` may change the role of `v`: as the master, or as a manager if `v` is a requester or a normal member. -/
def Groups.MayChange (s : Groups) (u g v : ℤ) : Prop := s.role g u = some .master ∨
  (s.role g u = some .manager ∧ (s.role g v = some .request ∨ s.role g v = some .normal))

/-- What one may do to one's own role: ask to join, leave, create the group, and anything for those who run it. -/
def OwnChange (u g : ℤ) (s s' : Groups) : Prop :=
  (s.role g u = none ∧ s'.role g u = some .request) ∨
  ((s.role g u = some .manager ∨ s.role g u = some .normal) ∧ s'.role g u = none) ∨
  (s.role g u = none ∧ s'.role g u = some .master ∧ s.allGroup.lookup g = none ∧ (s'.allGroup.lookup g).isSome) ∨
  s.Runs g u

/-- Every role that changes was `u`'s to change. -/
structure Authorized (u : ℤ) (s s' : Groups) : Prop where
  others : ∀ g v, v ≠ u → s'.role g v ≠ s.role g v → s.MayChange u g v
  own : ∀ g, s'.role g u ≠ s.role g u → OwnChange u g s s'

/-- What the handlers do not check: that a manager does not add the master or another manager again, that who sets a
manager runs the group, and that who cancels one is the master or the manager himself. -/
def Entitled (u : ℤ) (s : Groups) : GroupOp → Prop
  | .add g v => ¬ (s.role g u = some .manager ∧ v ≠ u ∧
      (s.role g v = some .master ∨ s.role g v = some .manager))
  | .setManager g v => s.role g v = some .normal → s.Runs g u
  | .cancelManager g v => s.role g v = some .manager → s.role g u = some .master ∨ v = u
  | _ => True

section Apply

variable {collate : String → String} {u : ℤ} {s s' : Groups}

open GroupOp

theorem authorized_of_role_eq (h : ∀ g v, s'.role g v = s.role g v) : Authorized u s s' :=
  ⟨fun g v _ hne => absurd (h g v) hne, fun g hne => absurd (h g u) hne⟩

theorem authorized_create (name : String) : Authorized u s (apply collate u s (.create name)) := by
  constructor
  · intro g v hv hne
    exact absurd (role_create.trans (if_neg fun h => hv h.2.2)) hne
  · intro g hne
    rw [role_create] at hne
    split at hne
    case isTrue h =>
      obtain ⟨hfree, rfl, -⟩ := h
      cases hrole : s.role s.allGroup.next u with
      | some r => simp [hrole] at hne
      | none =>
        have hrole' : (apply collate u s (.create name)).role s.allGroup.next u = some .master := by
          rw [role_create, if_pos ⟨hfree, rfl, rfl⟩, hrole, Option.getD_none]
        exact .inr (.inr (.inl ⟨hrole, hrole', s.allGroup.lookup_next, exists_create.2 (.inl ⟨hfree, rfl⟩)⟩))
    case isFalse => exact absurd rfl hne

theorem authorized_request (g : ℤ) : Authorized u s (apply collate u s (.request g)) := by
  constructor
  · intro g' v hv hne
    exact absurd (role_request.trans (if_neg fun h => hv h.2)) hne
  · intro g' hne
    rw [role_request] at hne
    split at hne
    case isTrue h =>
      obtain ⟨rfl, -⟩ := h
      cases hrole : s.role g' u with
      | some r => simp [hrole] at hne
      | none =>
        refine .inl ⟨hrole, ?_⟩
        rw [role_request, if_pos ⟨rfl, rfl⟩, hrole, Option.getD_none]
    case isFalse => exact absurd rfl hne

theorem authorized_add (g v : ℤ) : Authorized u s (apply collate u s (.add g v)) ↔ Entitled u s (.add g v) := by
  simp only [Entitled]
  constructor
  · rintro h ⟨hmanager, hv, hrole⟩
    have hne : (apply collate u s (.add g v)).role g v ≠ s.role g v := by
      rw [role_add, if_pos ⟨.inr hmanager, rfl, rfl⟩]
      rcases hrole with hrole | hrole <;> simp [hrole]
    rcases h.others g v hv hne with hmaster | ⟨-, hlow⟩
    · simp [hmaster] at hmanager
    · rcases hrole with hrole | hrole <;> simp [hrole] at hlow
  · intro h
    constructor
    · intro g' v' hv hne
      rw [role_add] at hne
      split at hne
      case isTrue hadds =>
        obtain ⟨hruns, rfl, rfl⟩ := hadds
        refine hruns.imp_right fun hmanager => ⟨hmanager, ?_⟩
        rcases hrole : s.role g' v' with _ | r
        · simp [hrole] at hne
        · cases r <;> simp_all
      case isFalse => exact absurd rfl hne
    · intro g' hne
      rw [role_add] at hne
      split at hne
      case isTrue hadds => exact .inr (.inr (.inr (hadds.2.1 ▸ hadds.1)))
      case isFalse => exact absurd rfl hne

theorem authorized_quit (g : ℤ) : Authorized u s (apply collate u s (.quit g)) := by
  constructor
  · intro g' v hv hne
    exact absurd (role_quit.trans (if_neg fun h => hv h.2.2)) hne
  · intro g' hne
    rw [role_quit] at hne
    split at hne
    case isTrue h =>
      obtain ⟨hquits, rfl, -⟩ := h
      exact .inr (.inl ⟨hquits, role_quit.trans (if_pos ⟨hquits, rfl, rfl⟩)⟩)
    case isFalse => exact absurd rfl hne

theorem authorized_setManager (g v : ℤ) :
    Authorized u s (apply collate u s (.setManager g v)) ↔ Entitled u s (.setManager g v) := by
  simp only [Entitled]
  constructor
  · intro h hnormal
    have hrole : (apply collate u s (.setManager g v)).role g v = some .manager :=
      role_setManager.trans (if_pos ⟨hnormal, rfl, rfl⟩)
    have hne : (apply collate u s (.setManager g v)).role g v ≠ s.role g v := by simp [hrole, hnormal]
    by_cases hv : v = u
    · subst hv
      rcases h.own g hne with h | h | h | h
      · simp [hnormal] at h
      · simp [hrole] at h
      · simp [hnormal] at h
      · exact h
    · exact (h.others g v hv hne).imp_right And.left
  · intro h
    constructor
    · intro g' v' hv hne
      rw [role_setManager] at hne
      split at hne
      case isTrue hsets =>
        obtain ⟨hnormal, rfl, rfl⟩ := hsets
        exact (h hnormal).imp_right fun hmanager => ⟨hmanager, .inr hnormal⟩
      case isFalse => exact absurd rfl hne
    · intro g' hne
      rw [role_setManager] at hne
      split at hne
      case isTrue hsets => exact .inr (.inr (.inr (hsets.2.1 ▸ h hsets.1)))
      case isFalse => exact absurd rfl hne

theorem authorized_cancelManager (g v : ℤ) :
    Authorized u s (apply collate u s (.cancelManager g v)) ↔ Entitled u s (.cancelManager g v) := by
  simp only [Entitled]
  constructor
  · intro h hmanager
    have hne : (apply collate u s (.cancelManager g v)).role g v ≠ s.role g v := by
      rw [role_cancelManager, if_pos ⟨hmanager, rfl, rfl⟩, hmanager]
      simp
    by_cases hv : v = u
    · exact .inr hv
    · refine .inl ((h.others g v hv hne).resolve_right ?_)
      simp [hmanager]
  · intro h
    constructor
    · intro g' v' hv hne
      rw [role_cancelManager] at hne
      split at hne
      case isTrue hcancels =>
        obtain ⟨hmanager, rfl, rfl⟩ := hcancels
        exact .inl ((h hmanager).resolve_right hv)
      case isFalse => exact absurd rfl hne
    · intro g' hne
      rw [role_cancelManager] at hne
      split at hne
      case isTrue hcancels =>
        obtain ⟨hmanager, rfl, rfl⟩ := hcancels
        exact .inr (.inr (.inr (.inr hmanager)))
      case isFalse => exact absurd rfl hne

theorem authorized_kick (g v : ℤ) : Authorized u s (apply collate u s (.kick g v)) := by
  constructor
  · intro g' v' hv hne
    rw [role_kick] at hne
    split at hne
    case isTrue hkicks =>
      obtain ⟨⟨hrow, hrequest, hguard⟩, rfl, rfl⟩ := hkicks
      refine hguard.imp_right fun ⟨hmanager, hnotManager, hnotMaster⟩ => ⟨hmanager, .inr ?_⟩
      rcases hrole : s.role g' v' with _ | r
      · exact absurd hrole hrow
      · cases r <;> simp_all
    case isFalse => exact absurd rfl hne
  · intro g' hne
    rw [role_kick] at hne
    split at hne
    case isTrue hkicks => exact .inr (.inr (.inr (hkicks.2.1 ▸ hkicks.1.2.2.imp_right And.left)))
    case isFalse => exact absurd rfl hne

theorem authorized_delete (g : ℤ) : Authorized u s (apply collate u s (.delete g)) := by
  constructor
  · intro g' v hv hne
    rw [role_delete] at hne
    split at hne
    case isTrue h => exact .inl (h.2 ▸ h.1)
    case isFalse => exact absurd rfl hne
  · intro g' hne
    rw [role_delete] at hne
    split at hne
    case isTrue h => exact .inr (.inr (.inr (.inl (h.2 ▸ h.1))))
    case isFalse => exact absurd rfl hne

/-- A request changes what its requester may change, when it is one that he is entitled to. -/
theorem authorized_apply (op : GroupOp) : Authorized u s (apply collate u s op) ↔ Entitled u s op := by
  cases op with
  | create name => exact iff_of_true (authorized_create name) trivial
  | request g => exact iff_of_true (authorized_request g) trivial
  | add g v => exact authorized_add g v
  | quit g => exact iff_of_true (authorized_quit g) trivial
  | setManager g v => exact authorized_setManager g v
  | cancelManager g v => exact authorized_cancelManager g v
  | kick g v => exact iff_of_true (authorized_kick g v) trivial
  | chat g => exact iff_of_true (authorized_of_role_eq fun _ _ => rfl) trivial
  | delete g => exact iff_of_true (authorized_delete g) trivial

end Apply

theorem authorized_serve_iff {env : Environment} {w : World} {conn : Conn} {u : ℤ}
    (hconn : w.connUserMap conn = some u) (msgid : ℤ) (js : Json) (time : String) :
    Authorized u w.groups (serve env (.request conn msgid js time) w).groups ↔
      ∀ op, groupOp msgid js = some op → Entitled u w.groups op := by
  have hserve : (serve env (.request conn msgid js time) w).groups = applyOp env w conn (groupOp msgid js) :=
    groups_request conn js time msgid
  have huser : w.userOf conn = u := by rw [World.userOf, hconn, Option.getD_some]
  rw [hserve, applyOp, huser]
  cases groupOp msgid js with
  | none => exact iff_of_true (authorized_of_role_eq fun _ _ => rfl) (by simp)
  | some op => simpa using authorized_apply op

/-- **A request of a logged-in user whose texts stay inside their literals changes only roles that are his to change,
exactly when it passes the checks that the handlers leave out.** -/
theorem authorized_request_iff {env : Environment} {other : Other} {w : World} {conn : Conn} {u : ℤ}
    (hconn : w.connUserMap conn = some u) {msgid : ℤ} {js : Json} {time : String}
    (hworded : Worded env w (some (.request conn msgid js time))) :
    Authorized u w.groups (serveSql env other (.request conn msgid js time) w.nonNull).groups ↔
      ∀ op, groupOp msgid js = some op → Entitled u w.groups op := by
  rw [serveSql_nonNull hworded]
  exact authorized_serve_iff hconn msgid js time

/-- Ann, the master of the group 3, adds bob, who asked to join. -/
theorem authorized_request_ann :
    ∃ w, (serial .still).exec (boot .still (World.init annAndBob))
        [some (logsIn 1 "ann" "a"), some (logsIn 2 "bob" "b"), some (creates 1 "cats"),
          some (asksToJoin 2 3)] = some w ∧
      groupOp EnMsgType.addGroup.code (.obj [("groupid", .num 3), ("userid", .num 4)]) = some (.add 3 4) ∧
      w.groups.role 3 3 = some .master ∧
      (Authorized 3 w.groups (serveSql .still .overrun (groupAction .addGroup 1 3 4) w.nonNull).groups ↔
        ∀ op, groupOp EnMsgType.addGroup.code (.obj [("groupid", .num 3), ("userid", .num 4)]) = some op →
          Entitled 3 w.groups op) :=
  ⟨_, rfl, rfl, rfl, authorized_request_iff rfl (by decide)⟩

/-- Ann creates a group and adds bob, who then makes himself a manager. -/
theorem member_promotes_himself :
    ∃ w, (serial .still).exec (boot .still (World.init annAndBob))
        [some (logsIn 1 "ann" "a"), some (logsIn 2 "bob" "b"), some (creates 1 "cats"),
          some (asksToJoin 2 3), some (groupAction .addGroup 1 3 4)] = some w ∧
      w.connUserMap 2 = some 4 ∧
      ¬ Authorized 4 w.groups (serve .still (groupAction .setManager 2 3 4) w).groups := by
  refine ⟨_, rfl, rfl, fun h => ?_⟩
  rcases h.own 3 (fun h => by cases h) with h | h | h | h
  · cases h.1
  · cases h.2
  · cases h.1
  · rcases h with h | h <;> cases h

/-! ## The master -/

/-- Every group has exactly one master, and where there is no group there are only requests. -/
structure OneMaster (s : Groups) : Prop where
  master : ∀ g, (s.allGroup.lookup g).isSome → ∃! u, s.role g u = some .master
  requests : ∀ g, s.allGroup.lookup g = none → ∀ u r, s.role g u = some r → r = .request

/-- The request leaves the master alone: who creates a group has not asked to join it before it existed, and the
master is neither added again nor kicks himself. -/
def SparesMaster (collate : String → String) (u : ℤ) (s : Groups) : GroupOp → Prop
  | .create name => s.refuses collate name = false → s.role s.allGroup.next u = none
  | .add g v => s.Runs g u → s.role g v ≠ some .master
  | .kick g v => s.role g u = some .master → s.role g v ≠ some .master
  | _ => True

section Apply

variable {collate : String → String} {u : ℤ} {s s' : Groups}

open GroupOp

namespace OneMaster

/-- Where no group comes or goes, masters stay what they are, and nobody gets a role without one. -/
theorem of_iff (h : OneMaster s) (hgroups : s'.allGroup = s.allGroup)
    (hmaster : ∀ g v, s'.role g v = some .master ↔ s.role g v = some .master)
    (hrows : ∀ g, s.allGroup.lookup g = none → ∀ v r, s'.role g v = some r → r ≠ .request →
      ∃ r', s.role g v = some r' ∧ r' ≠ .request) :
    OneMaster s' := by
  constructor
  · intro g hg
    rw [hgroups] at hg
    simpa only [hmaster] using h.master g hg
  · intro g hg v r hr
    by_contra hne
    rw [hgroups] at hg
    obtain ⟨r', hr', hne'⟩ := hrows g hg v r hr hne
    exact hne' (h.requests g hg v r' hr')

theorem create (h : OneMaster s) {name : String} (hok : SparesMaster collate u s (.create name)) :
    OneMaster (apply collate u s (.create name)) := by
  -- nobody has more than a request for the next group
  have hnext := h.requests s.allGroup.next s.allGroup.lookup_next
  constructor
  · intro g hg
    rcases exists_create.1 hg with ⟨hfree, rfl⟩ | hg
    · refine ⟨u, ?_, fun v hv => ?_⟩
      · show (apply collate u s (.create name)).role _ _ = _
        rw [role_create, if_pos ⟨hfree, rfl, rfl⟩, hok hfree, Option.getD_none]
      · by_contra hne
        have hrole : s.role s.allGroup.next v = some .master := by
          simpa only [role_create, hne, and_false, if_false] using hv
        cases hnext v _ hrole
    · have hold : ∀ v, (apply collate u s (.create name)).role g v = s.role g v := by
        intro v
        refine role_create.trans (if_neg ?_)
        rintro ⟨-, rfl, -⟩
        simp [AutoTable.lookup_next] at hg
      simpa only [hold] using h.master g hg
  · intro g hg v r hr
    rw [← Option.not_isSome_iff_eq_none, exists_create, not_or, Option.not_isSome_iff_eq_none] at hg
    rw [role_create, if_neg fun h => hg.1 ⟨h.1, h.2.1⟩] at hr
    exact h.requests g hg.2 v r hr

theorem delete (h : OneMaster s) (g : ℤ) : OneMaster (apply collate u s (.delete g)) := by
  constructor
  · intro g' hg'
    obtain ⟨hother, hg'⟩ := exists_delete.1 hg'
    simpa only [role_delete, hother, if_false] using h.master g' hg'
  · intro g' hg' v r hr
    rw [role_delete] at hr
    split at hr
    case isTrue => cases hr
    case isFalse hother =>
      rw [← Option.not_isSome_iff_eq_none, exists_delete, not_and, Option.not_isSome_iff_eq_none] at hg'
      exact h.requests g' (hg' hother) v r hr

theorem request (h : OneMaster s) (g : ℤ) : OneMaster (apply collate u s (.request g)) := by
  refine h.of_iff rfl (fun g' v => ?_) fun g' _ v r hr hne => ?_
  · rw [role_request]
    split
    case isTrue heq =>
      obtain ⟨rfl, rfl⟩ := heq
      cases s.role g' v <;> simp
    case isFalse => rfl
  · rw [role_request] at hr
    split at hr
    case isTrue heq =>
      obtain ⟨rfl, rfl⟩ := heq
      cases hrole : s.role g' v <;> simp_all
    case isFalse => exact ⟨r, hr, hne⟩

theorem add (h : OneMaster s) {g v : ℤ} (hok : SparesMaster collate u s (.add g v)) :
    OneMaster (apply collate u s (.add g v)) := by
  refine h.of_iff (allGroup_apply nofun nofun) (fun g' v' => ?_) fun g' hg' v' r hr hne => ?_
  · rw [role_add]
    split
    case isTrue heq =>
      obtain ⟨hruns, rfl, rfl⟩ := heq
      refine iff_of_false ?_ (hok hruns)
      cases s.role g' v' <;> simp
    case isFalse => rfl
  · rw [role_add] at hr
    split at hr
    case isTrue heq =>
      obtain ⟨hruns, rfl, rfl⟩ := heq
      -- nobody runs what is not there
      rcases hruns with hrole | hrole <;> cases h.requests g' hg' u _ hrole
    case isFalse => exact ⟨r, hr, hne⟩

theorem quit (h : OneMaster s) (g : ℤ) : OneMaster (apply collate u s (.quit g)) := by
  refine h.of_iff (allGroup_apply nofun nofun) (fun g' v => ?_) fun g' _ v r hr hne => ?_
  · rw [role_quit]
    split
    case isTrue heq =>
      obtain ⟨hquits, rfl, rfl⟩ := heq
      rcases hquits with hrole | hrole <;> simp [hrole]
    case isFalse => rfl
  · rw [role_quit] at hr
    split at hr
    case isTrue => cases hr
    case isFalse => exact ⟨r, hr, hne⟩

theorem setManager (h : OneMaster s) (g v : ℤ) : OneMaster (apply collate u s (.setManager g v)) := by
  refine h.of_iff (allGroup_apply nofun nofun) (fun g' v' => ?_) fun g' _ v' r hr hne => ?_
  · rw [role_setManager]
    split
    case isTrue heq =>
      obtain ⟨hnormal, rfl, rfl⟩ := heq
      simp [hnormal]
    case isFalse => rfl
  · rw [role_setManager] at hr
    split at hr
    case isTrue heq =>
      obtain ⟨hnormal, rfl, rfl⟩ := heq
      exact ⟨.normal, hnormal, by decide⟩
    case isFalse => exact ⟨r, hr, hne⟩

theorem cancelManager (h : OneMaster s) (g v : ℤ) : OneMaster (apply collate u s (.cancelManager g v)) := by
  refine h.of_iff (allGroup_apply nofun nofun) (fun g' v' => ?_) fun g' _ v' r hr hne => ?_
  · rw [role_cancelManager]
    split
    case isTrue heq =>
      obtain ⟨hmanager, rfl, rfl⟩ := heq
      simp [hmanager]
    case isFalse => rfl
  · rw [role_cancelManager] at hr
    split at hr
    case isTrue heq =>
      obtain ⟨hmanager, rfl, rfl⟩ := heq
      exact ⟨.manager, hmanager, by decide⟩
    case isFalse => exact ⟨r, hr, hne⟩

theorem kick (h : OneMaster s) {g v : ℤ} (hok : SparesMaster collate u s (.kick g v)) :
    OneMaster (apply collate u s (.kick g v)) := by
  refine h.of_iff (allGroup_apply nofun nofun) (fun g' v' => ?_) fun g' _ v' r hr hne => ?_
  · rw [role_kick]
    split
    case isTrue heq =>
      obtain ⟨⟨-, -, hguard⟩, rfl, rfl⟩ := heq
      refine iff_of_false (by simp) ?_
      rcases hguard with hmaster | ⟨-, -, hnot⟩
      · exact hok hmaster
      · exact hnot
    case isFalse => rfl
  · rw [role_kick] at hr
    split at hr
    case isTrue => cases hr
    case isFalse => exact ⟨r, hr, hne⟩

end OneMaster

theorem oneMaster_apply (h : OneMaster s) {op : GroupOp} (hok : SparesMaster collate u s op) :
    OneMaster (apply collate u s op) := by
  cases op with
  | create name => exact h.create hok
  | request g => exact h.request g
  | add g v => exact h.add hok
  | quit g => exact h.quit g
  | setManager g v => exact h.setManager g v
  | cancelManager g v => exact h.cancelManager g v
  | kick g v => exact h.kick hok
  | chat g => exact ⟨h.master, h.requests⟩
  | delete g => exact h.delete g

/-- A request that does not spare the master leaves a group without one. -/
theorem spares_of_oneMaster_apply (h : OneMaster s) {op : GroupOp} (h' : OneMaster (apply collate u s op)) :
    SparesMaster collate u s op := by
  have hexists : ∀ {g v : ℤ} {r : Role}, s.role g v = some r → r ≠ .request → (s.allGroup.lookup g).isSome := by
    intro g v r hr hne
    by_contra hg
    exact hne (h.requests g (Option.not_isSome_iff_eq_none.1 hg) v r hr)
  cases op with
  | create name =>
    intro hfree
    obtain ⟨v, hv, -⟩ := h'.master s.allGroup.next (exists_create.2 (.inl ⟨hfree, rfl⟩))
    have hnext := h.requests s.allGroup.next s.allGroup.lookup_next
    by_contra hne
    obtain ⟨r, hr⟩ := Option.ne_none_iff_exists'.1 hne
    simp only [role_create] at hv
    split at hv
    case isTrue =>
      rw [hr, Option.getD_some] at hv
      cases (hnext u r hr).symm.trans (Option.some.inj hv)
    case isFalse => cases hnext v _ hv
  | add g v =>
    intro hruns hmaster
    have hg : ((apply collate u s (.add g v)).allGroup.lookup g).isSome := by
      rw [apply, if_pos hruns]
      exact hexists hmaster (by decide)
    obtain ⟨m, hm, -⟩ := h'.master g hg
    simp only [role_add] at hm
    split at hm
    case isTrue => simp [hmaster] at hm
    case isFalse hne =>
      have huniq := (h.master g (hexists hmaster (by decide))).unique hm hmaster
      exact hne ⟨hruns, trivial, huniq⟩
  | kick g v =>
    intro hu hmaster
    have hkicks : s.Kicks g u v := ⟨by simp [hmaster], by simp [hmaster], .inl hu⟩
    have hg : ((apply collate u s (.kick g v)).allGroup.lookup g).isSome := by
      rw [apply, if_pos hkicks]
      exact hexists hmaster (by decide)
    obtain ⟨m, hm, -⟩ := h'.master g hg
    simp only [role_kick] at hm
    split at hm
    case isTrue => cases hm
    case isFalse hne =>
      have huniq := (h.master g (hexists hmaster (by decide))).unique hm hmaster
      exact hne ⟨hkicks, trivial, huniq⟩
  | request g => trivial
  | quit g => trivial
  | setManager g v => trivial
  | cancelManager g v => trivial
  | chat g => trivial
  | delete g => trivial

theorem oneMaster_apply_iff (h : OneMaster s) {op : GroupOp} :
    OneMaster (apply collate u s op) ↔ SparesMaster collate u s op :=
  ⟨spares_of_oneMaster_apply h, oneMaster_apply h⟩

end Apply

/-- There are no groups, and no rows about them. -/
structure NoGroups (s : Groups) : Prop where
  allGroup : ∀ g, s.allGroup.lookup g = none
  groupUser : ∀ g u, s.role g u = none

theorem NoGroups.not_member {s : Groups} (h : NoGroups s) (g u : ℤ) : ¬ s.Member g u := by
  rintro ⟨r, hr, -⟩
  simp [h.groupUser g u] at hr

section Run

variable {env : Environment} {w₀ w : World}

/-- Every group request of the step spares the master. -/
def MasterSpared (env : Environment) (w : World) : Option Activity → Prop
  | some a => ∀ u op, requested w a = some (u, op) → SparesMaster env.collate u w.groups op
  | none => True

theorem oneMaster_of_serial (h₀ : NoGroups w₀.groups) {l : List (Option Activity)}
    (h : (serial env).Run (MasterSpared env) (boot env w₀) l w) (g : ℤ)
    (hg : (w.db.allGroup.lookup g).isSome) : ∃! u, w.db.queryGroupRole u g = some .master := by
  have hboot : ∀ v : World, OneMaster v.groups → OneMaster (boot env v).groups := by
    intro v hv
    rw [groups_boot]
    exact ⟨hv.master, hv.requests⟩
  have hserve : ∀ (s : World) (a : Activity), MasterSpared env s (some a) → OneMaster s.groups →
      OneMaster (serve env a s).groups :=
    fun s a hok hs => groups_serve_of hs fun u op hreq => (oneMaster_apply_iff hs).2 (hok u op hreq)
  have hempty : OneMaster w₀.groups :=
    ⟨fun g hg => by simp [h₀.allGroup g] at hg, fun g _ u r hr => by simp [h₀.groupUser g u] at hr⟩
  have hmaster : OneMaster w.groups := serial_invariant (fun s _ => hboot s) hserve h (hboot w₀ hempty)
  exact hmaster.master g hg

/-- **Every group has exactly one master**, in every run from empty tables whose requests all spare the master and
whose texts stay inside their literals. -/
theorem oneMaster_of_run {other : Other} (h₀ : NoGroups w₀.groups) {l : List (Option Activity)} {s : NullableWorld}
    (h : (serialSql env other).Run (fun s a => Worded env s.toWorld a ∧ MasterSpared env s.toWorld a)
      (bootSql env other w₀.nonNull) l s) (g : ℤ)
    (hg : (s.db.allGroup.lookup g).isSome) : ∃! u, s.db.queryGroupRole u g = some .master := by
  obtain ⟨w, rfl, hrun⟩ := serial_of_worded_boot h
  exact oneMaster_of_serial h₀ hrun g hg

end Run

/-- Ann creates a group and adds bob, who asked to join. -/
theorem oneMaster_of_run_ann :
    ∃ s, (serialSql .still .overrun).Run (fun s a => Worded .still s.toWorld a ∧ MasterSpared .still s.toWorld a)
        (bootSql .still .overrun (World.init annAndBob).nonNull)
        [some (logsIn 1 "ann" "a"), some (logsIn 2 "bob" "b"), some (creates 1 "cats"),
          some (asksToJoin 2 3), some (groupAction .addGroup 1 3 4)] s ∧
      ∃! u, s.db.queryGroupRole u 3 = some .master := by
  obtain ⟨w, hrun, hg⟩ : ∃ w, (serial .still).Run (fun w a => Worded .still w a ∧ MasterSpared .still w a)
      (boot .still (World.init annAndBob))
      [some (logsIn 1 "ann" "a"), some (logsIn 2 "bob" "b"), some (creates 1 "cats"),
        some (asksToJoin 2 3), some (groupAction .addGroup 1 3 4)] w ∧ (w.db.allGroup.lookup 3).isSome := by
    refine ⟨_, .cons ⟨by decide, ?_⟩ rfl (.cons ⟨by decide, ?_⟩ rfl (.cons ⟨by decide, ?_⟩ rfl
      (.cons ⟨by decide, ?_⟩ rfl (.cons ⟨by decide, ?_⟩ rfl (.nil _))))), rfl⟩
    all_goals
      intro u op hreq
      cases hreq
    · exact fun _ => rfl
    · trivial
    · intro _ hmaster
      cases hmaster
  have hsql : (serialSql .still .overrun).Run _ _ _ _ := serialSql_of_boot hrun
  exact ⟨_, hsql, oneMaster_of_run ⟨fun _ => rfl, fun _ _ => rfl⟩ hsql 3 hg⟩

/-- Bob asks to join the group that will be created next, and creates it: it has no master. -/
theorem requester_creates_without_master :
    ∃ w, (serial .still).exec (boot .still (World.init annAndBob))
        [some (logsIn 1 "bob" "b"), some (asksToJoin 1 3), some (creates 1 "cats")] = some w ∧
      (w.db.allGroup.lookup 3).isSome ∧ ¬ ∃! u, w.db.queryGroupRole u 3 = some .master := by
  refine ⟨_, rfl, rfl, ?_⟩
  rintro ⟨u, hu, -⟩
  have hmem := Table.mem_rows.2 hu
  change ((3, u), Role.master) ∈ [((3, 4), Role.request)] at hmem
  simp at hmem

end Chatroom.Service
