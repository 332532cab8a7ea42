import Bookit.Accounts.AdminTokens
import Bookit.Lib.OneTime
import Bookit.Lib.Stages
import Mathlib.Data.List.Dedup

/-!
# Accounts.ResetTokens — how often a reset token is used, and what is deleted with it

`resetRequest` draws a token and stores it under the address; `resetConfirm` reads the token, hashes
the new password, writes it and deletes the key.  All of these are commands of their own, so that other
requests can come in between.

Every run is one of a ledger of tokens, as long as no call reads a token that another is still at work
with, no newer token is stored in the meantime, and a password that was changed is followed by the
deletion of the key.
-/

namespace Bookit
namespace Accounts

open Lib

/-! ## What the runs do -/

/-- The passwords that were changed, by address and token, and the keys that were deleted, with the
token that was there. -/
structure ResetLog where
  changes : List (String × String)
  deletions : List (String × String × String)
  deriving DecidableEq

def recordReset (request : Request) (_ : ℕ) (e : Outcome) (c : Cmd) (s : Store) (log : ResetLog) :
    ResetLog :=
  match c, request, e with
  | .updatePassword address _, .resetConfirm email token _, .link l =>
      if l = .lost ∨ s.users.filter (fun u => decide (u.email = address)) = [] then log
      else { log with changes := log.changes ++ [(email, token)] }
  | .del key, .resetConfirm email token _, .link l =>
      if l = .lost then log
      else
        { log with
          deletions := log.deletions ++
            ((s.redis.lookup s.now key).map fun removed => (email, token, removed)).toList }
  | _, _, _ => log

/-- How far a request has come: it has drawn a token, found its token stored, or changed the
password. -/
inductive ResetStage where
  | idle
  | drawn (u : Uuid)
  | validated
  | changed
  deriving DecidableEq

def nextStage (request : Request) (b : ResetStage) : (c : Cmd) → Rep c → ResetStage
  | .connect, _ => b
  | .hash _, _ => b
  | .uuid, u =>
      match request with
      | .resetRequest _ => .drawn u
      | _ => .idle
  | .get _, some (some stored) =>
      match request with
      | .resetConfirm _ token _ => if stored = token then .validated else .idle
      | _ => .idle
  | .updatePassword .., some (_ + 1) => .changed
  | _, _ => .idle

/-- The commands on tokens and passwords at each stage. -/
def MayReset (request : Request) (b : ResetStage) : Cmd → Prop
  | .get key => ∃ email token newPassword,
      request = .resetConfirm email token newPassword ∧ b = .idle ∧ key = resetKey email
  | .updatePassword address _ => ∃ email token newPassword,
      request = .resetConfirm email token newPassword ∧ b = .validated ∧ address = email
  | .del key => ∃ email token newPassword,
      request = .resetConfirm email token newPassword ∧ b = .changed ∧ key = resetKey email
  | .setEx key value ttl => ∃ email u,
      request = .resetRequest email ∧ b = .drawn u ∧ key = resetKey email ∧ value = u.simple ∧
        ttl = resetTtlSecs
  | .uuid => b = .idle
  | _ => b ≠ .changed

/-- The server with a log of what it does, and the stages of its requests. -/
def resetMachine (d : Deployment) (start : Start) :
    Machine ((Store × ResetLog) × (ℕ → ResetStage)) Rep Request Unit Outcome Environ :=
  ((machine d start).logged ⟨[], []⟩ recordReset).staged .idle nextStage

abbrev ResetPool := Pool ((Store × ResetLog) × (ℕ → ResetStage)) Rep Request Unit

/-! ## The ledger of tokens -/

/-- The tokens there were at the start, and those that were drawn since. -/
def issued (start : Start) (s : Store) : List (String × String) :=
  (start.pending.map fun x => (x.1, x.2.1.simple)).dedup ++
    s.uuids.filterMap fun y =>
      match y.1 with
      | .resetRequest email => some (email, y.2.simple)
      | _ => none

def roleOf : Request → ResetStage → Role String String
  | .resetRequest email, .drawn u => .drawn email u.simple
  | .resetConfirm email token _, .validated => .holding email token
  | .resetConfirm email token _, .changed => .used email token
  | _, _ => .idle

def resetRole (p : ResetPool) (i : ℕ) : Role String String :=
  match p.threads[i]? with
  | some ⟨request, some _⟩ => roleOf request (p.store.2 i)
  | _ => .idle

def tokenLedger (start : Start) (p : ResetPool) : Ledger String String where
  slot email := p.store.1.1.redis.lookup p.store.1.1.now (resetKey email)
  known := issued start p.store.1.1
  uses := p.store.1.2.changes
  removed := p.store.1.2.deletions
  role := resetRole p

/-- A token that was drawn changes one password at most, and so does one of the start for each
address; no call deletes a token that was drawn after its own. -/
structure SingleUse (start : Start) (s : Store) (log : ResetLog) : Prop where
  drawn : ∀ email u, (.resetRequest email, u) ∈ s.uuids →
    log.changes.countP (fun x => decide (x.2 = u.simple)) ≤ 1
  once : log.changes.Nodup
  older : ∀ x ∈ log.deletions, ¬ Ledger.After (issued start s) x.1 x.2.1 x.2.2

/-! ## The runs -/

/-- No `resetConfirm` for the address has found this token and is still at work with it. -/
def NotHeld (p : ResetPool) (email token : String) : Prop :=
  ∀ j < p.threads.length, ¬ (resetRole p j).Holds email token

instance (p : ResetPool) (email token : String) : Decidable (NotHeld p email token) :=
  inferInstanceAs (Decidable (∀ j < p.threads.length, _))

/-- A UUID is new.  A token is stored only while no call is at work with an older one of the address,
and found only while no other call is at work with it; that a password was changed does not go
unnoticed, and the deletion that follows reaches Redis. -/
def InTurn (start : Start) (p : ResetPool) (request : Request) (_ : ℕ) (e : Outcome) (c : Cmd)
    (s : (Store × ResetLog) × (ℕ → ResetStage)) : Prop :=
  match c, request, e with
  | .uuid, .resetRequest _, .drawn u =>
      (∀ x ∈ start.pending, x.2.1 ≠ u) ∧ ∀ y ∈ s.1.1.uuids, y.2 ≠ u
  | .setEx _ value _, .resetRequest email, .link l => l ≠ .lost →
      ∀ x ∈ issued start s.1.1, Ledger.After (issued start s.1.1) email x.2 value →
        NotHeld p email x.2
  | .get _, .resetConfirm email token _, .link l => l = .ok →
      s.1.1.redis.lookup s.1.1.now (resetKey email) = some token → NotHeld p email token
  | .updatePassword .., .resetConfirm .., .link l => l ≠ .unacked
  | .del _, .resetConfirm .., .link l => l ≠ .lost
  | _, _, _ => True

instance {start : Start} {p : ResetPool} {request : Request} {i : ℕ} {e : Outcome} {c : Cmd}
    {s : (Store × ResetLog) × (ℕ → ResetStage)} : Decidable (InTurn start p request i e c s) := by
  unfold InTurn
  rcases c with ⟨⟩ <;> rcases request with ⟨⟩ <;> rcases e with ⟨⟩ <;> infer_instance

/-- No call is lost between the change of a password and the deletion of the key. -/
def InTurnRun (start : Start) (p : ResetPool) : Act Outcome Environ → Prop
  | .environ _ => True
  | .run i e => Machine.Permits (InTurn start p) i e p.store p.threads[i]?
  | .crash i => p.store.2 i ≠ .changed

instance {start : Start} {p : ResetPool} {a : Act Outcome Environ} :
    Decidable (InTurnRun start p a) :=
  match a with
  | .environ _ => isTrue trivial
  | .run i e =>
      inferInstanceAs (Decidable (Machine.Permits (InTurn start p) i e p.store p.threads[i]?))
  | .crash _ => inferInstanceAs (Decidable (_ ≠ _))

/-! ## The programs keep to their stages -/

section Programs

variable {β : Type} {request : Request}

/-- Commands that neither a token nor a password depends on. -/
def Cmd.Plain : Cmd → Prop
  | .get _ | .updatePassword .. | .del _ | .setEx .. => False
  | _ => True

/-- The requests that are none for a reset. -/
def Request.Other : Request → Prop
  | .resetRequest _ | .resetConfirm .. => False
  | _ => True

theorem follows_plain {p : Endpoint β} (hrequest : request.Other) (hp : p.Issues Cmd.Plain) :
    p.Follows (MayReset request) (nextStage request) (fun _ b => b = .idle) .idle := by
  refine Prog.follows_of_issues (S := fun b => b = ResetStage.idle) (hp.mono fun c hc => ?_) rfl
  rintro _ rfl
  cases c with
  | get | updatePassword | del | setEx => exact hc.elim
  | uuid =>
      refine ⟨rfl, fun u => ?_⟩
      cases request with
      | resetRequest | resetConfirm => exact hrequest.elim
      | _ => rfl
  | _ => exact ⟨nofun, fun _ => rfl⟩

theorem plain_authResponse (failure : String) (user : User) :
    (authResponse failure user).Issues Cmd.Plain := by
  simp only [authResponse, createJwt, Prog.perform_bind, Prog.call_bind, Prog.pure_eq]
  refine ⟨trivial, fun now => ⟨trivial, fun token => ?_⟩⟩
  cases token <;> trivial

theorem plain_signup (email password : String) (role : Option String) :
    (signup email password role).Issues Cmd.Plain := by
  simp only [signup, Prog.perform_bind, Prog.pure_eq]
  by_cases hblank : Payments.isBlank email = true
  · rw [if_pos hblank]
    trivial
  rw [if_neg hblank]
  by_cases hat : '@' ∉ email.toList
  · rw [if_pos hat]
    trivial
  rw [if_neg hat]
  by_cases hshort : password.utf8ByteSize < 6
  · rw [if_pos hshort]
    trivial
  rw [if_neg hshort]
  refine ⟨trivial, fun r => ?_⟩
  match r with
  | none => trivial
  | some () =>
      refine ⟨trivial, fun r => ?_⟩
      dsimp only
      split
      · trivial
      · refine ⟨trivial, fun r => ?_⟩
        match r with
        | none => trivial
        | some hashed =>
            refine ⟨trivial, fun r => ?_⟩
            match r with
            | none => trivial
            | some user => exact plain_authResponse _ user

theorem plain_login (d : Deployment) (email password : String) :
    (login d email password).Issues Cmd.Plain := by
  simp only [login, Prog.perform_bind, Prog.pure_eq]
  split_ifs
  · trivial
  · trivial
  refine ⟨trivial, fun r => ?_⟩
  match r with
  | none => trivial
  | some () =>
      refine ⟨trivial, fun r => ?_⟩
      dsimp only
      split
      · split
        · trivial
        · trivial
        · exact plain_authResponse _ _
      · trivial

theorem plain_googleUser (email : String) : (googleUser email).Issues Cmd.Plain := by
  simp only [googleUser, Prog.perform_bind, Prog.pure_eq]
  refine ⟨trivial, fun r => ?_⟩
  match r with
  | none => trivial
  | some (some user) => trivial
  | some none =>
      refine ⟨trivial, fun randomPassword => ⟨trivial, fun r => ?_⟩⟩
      match r with
      | none => trivial
      | some passwordHash =>
          refine ⟨trivial, fun r => ?_⟩
          cases r <;> trivial

theorem plain_googleLogin (d : Deployment) (credential : String) :
    (googleLogin d credential).Issues Cmd.Plain := by
  unfold googleLogin
  split
  · trivial
  · split_ifs
    · trivial
    · simp only [Prog.perform_bind, Prog.pure_eq]
      refine ⟨trivial, fun r => ?_⟩
      match r with
      | .unreachable | .refused | .malformed => trivial
      | .info claims =>
          simp only [googleVerified, Prog.perform_bind, Prog.pure_eq]
          refine ⟨trivial, fun now => ?_⟩
          dsimp only
          split_ifs
          · trivial
          · refine ⟨trivial, fun r => ?_⟩
            match r with
            | none => trivial
            | some () =>
                refine (plain_googleUser _).bind fun r => ?_
                match r with
                | .error response => trivial
                | .ok user => exact plain_authResponse _ user

theorem follows_resetRequest (email : String) :
    (resetRequest email).Follows (MayReset (.resetRequest email)) (nextStage (.resetRequest email))
      (fun _ b => b = .idle) .idle := by
  unfold resetRequest
  split_ifs
  · rfl
  · simp only [Prog.perform_bind, Prog.pure_eq]
    refine ⟨nofun, fun r => ?_⟩
    match r with
    | none => rfl
    | some () =>
        refine ⟨nofun, fun r => ?_⟩
        dsimp only
        split
        · split_ifs
          · rfl
          · refine ⟨rfl, fun u => ⟨⟨email, u, rfl, rfl, rfl, rfl, rfl⟩, fun r => ?_⟩⟩
            match r with
            | none => rfl
            | some () => rfl
        · rfl

theorem follows_resetPassword (email token newPassword password : String) :
    (resetPassword email newPassword).Follows (MayReset (.resetConfirm email token password))
      (nextStage (.resetConfirm email token password)) (fun _ b => b ≠ .changed) .validated := by
  simp only [resetPassword, Prog.perform_bind, Prog.pure_eq]
  refine ⟨nofun, fun r => ?_⟩
  match r with
  | none => exact nofun
  | some hashed =>
      refine ⟨nofun, fun r => ?_⟩
      match r with
      | none => exact nofun
      | some () =>
          refine ⟨⟨email, token, password, rfl, rfl, rfl⟩, fun r => ?_⟩
          match r with
          | none => exact nofun
          | some 0 => exact nofun
          | some (_ + 1) => exact ⟨⟨email, token, password, rfl, rfl, rfl⟩, fun _ => nofun⟩

theorem follows_resetConfirm (email token newPassword : String) :
    (resetConfirm email token newPassword).Follows
      (MayReset (.resetConfirm email token newPassword))
      (nextStage (.resetConfirm email token newPassword)) (fun _ b => b ≠ .changed) .idle := by
  unfold resetConfirm
  split_ifs
  · exact nofun
  · simp only [Prog.perform_bind, Prog.pure_eq]
    refine ⟨⟨email, token, newPassword, rfl, rfl, rfl⟩, fun r => ?_⟩
    match r with
    | none => exact nofun
    | some none => exact nofun
    | some (some stored) =>
        dsimp only [nextStage]
        by_cases heq : stored = token
        · rw [if_neg (not_not_intro heq), if_pos heq]
          exact follows_resetPassword email token newPassword newPassword
        · rw [if_pos heq, if_neg heq]
          exact nofun

theorem plain_handle (d : Deployment) :
    request.Other → (handle d request).Issues Cmd.Plain := by
  intro hrequest
  cases request with
  | signup email password role => exact plain_signup email password role
  | login email password => exact plain_login d email password
  | googleLogin credential => exact plain_googleLogin d credential
  | resetRequest | resetConfirm => exact hrequest.elim

theorem follows_handle (d : Deployment) :
    (handle d request).Follows (MayReset request) (nextStage request) (fun _ b => b ≠ .changed)
      .idle := by
  have hidle : ∀ (_ : Response) b, b = ResetStage.idle → b ≠ .changed := by
    rintro _ _ rfl
    exact nofun
  have hother : request.Other → (handle d request).Follows (MayReset request) (nextStage request)
      (fun _ b => b ≠ .changed) .idle :=
    fun h => (follows_plain h (plain_handle d h)).mono hidle
  cases request with
  | resetRequest email => exact (follows_resetRequest email).mono hidle
  | resetConfirm email token newPassword => exact follows_resetConfirm email token newPassword
  | _ => exact hother trivial

theorem follows_serve (d : Deployment) :
    (serve d request).Follows (MayReset request) (nextStage request) (fun _ _ => True) .idle := by
  refine (follows_handle d).bind fun response b hb => ?_
  exact ⟨hb, fun _ => trivial⟩

end Programs

/-! ## Every run is one of the ledger -/

section Steps

variable {d : Deployment} {start : Start} {p : ResetPool} {s t : Store} {n : Request} {i : ℕ}
variable {e : Outcome}

@[simp] theorem roleOf_idle : roleOf n .idle = .idle := by
  cases n <;> rfl

theorem resetRole_of_runs {q : Endpoint Unit} (h : p.Runs i n q) :
    resetRole p i = roleOf n (p.store.2 i) := by
  have h : p.threads[i]? = some ⟨n, some q⟩ := h
  simp only [resetRole, h]

theorem resetRole_of_le (h : p.threads.length ≤ i) : resetRole p i = .idle := by
  simp only [resetRole, List.getElem?_eq_none h]

/-- A call that is at work with a token is one of the threads. -/
theorem NotHeld.not_holds {email token : String} (h : NotHeld p email token) (j : ℕ) :
    ¬ (resetRole p j).Holds email token := by
  by_cases hj : j < p.threads.length
  · exact h j hj
  · rw [resetRole_of_le (Nat.not_lt.1 hj)]
    exact Role.holds_idle

/-- A step of a thread moves its own role. -/
theorem resetRole_set {u : Store × ResetLog} {b : ResetStage} {q : Option (Endpoint Unit)}
    (hi : i < p.threads.length) :
    resetRole ⟨(u, Function.update p.store.2 i b), p.threads.set i ⟨n, q⟩⟩ =
      Function.update (resetRole p) i (if q.isSome then roleOf n b else .idle) := by
  funext j
  by_cases hj : j = i
  · subst hj
    rw [Function.update_self]
    cases q with
    | none => simp only [resetRole, List.getElem?_set_self hi, Option.isSome_none]; rfl
    | some q =>
        simp only [resetRole, List.getElem?_set_self hi, Function.update_self, Option.isSome_some]
        rfl
  · rw [Function.update_of_ne hj]
    simp only [resetRole, List.getElem?_set_ne (Ne.symm hj), Function.update_of_ne hj]

theorem resetRole_start {u : Store × ResetLog} {ts : List (Request × Endpoint Unit)}
    (hidle : ∀ j, p.threads.length ≤ j → p.store.2 j = .idle) :
    resetRole ⟨(u, p.store.2), p.threads ++ Machine.start ts⟩ = resetRole p := by
  funext j
  by_cases hj : j < p.threads.length
  · simp only [resetRole, List.getElem?_append_left hj]
  · have hle := Nat.not_lt.1 hj
    rw [resetRole_of_le hle]
    simp only [resetRole, hidle j hle, roleOf_idle]
    split <;> rfl

/-- Commands that leave the tokens and the clock as they are. -/
def Cmd.Calm : Cmd → Prop
  | .setEx .. | .del _ | .uuid => False
  | _ => True

/-- The tokens that are stored and drawn, and the time. -/
def Store.tokens (s : Store) : Expiring String String × ℕ × List (Request × Uuid) :=
  (s.redis, s.now, s.uuids)

theorem tokens_exec {c : Cmd} {r : Rep c} (hc : c.Calm) (h : exec d n i e c s = some (t, r)) :
    t.tokens = s.tokens := by
  have hdeliver : ∀ {ρ : Type} {l : Link} {run : Store → Store × ρ} {x : Option ρ},
      (run s).1.tokens = s.tokens → l.deliver run s = (t, x) → t.tokens = s.tokens := by
    intro ρ l run x hrun hl
    rcases Link.deliver_cases hl with ⟨rfl, -⟩ | ⟨rfl, -⟩
    · rfl
    · exact hrun
  cases c with
  | setEx | del | uuid => exact hc.elim
  | connect | findUser | updatePassword | get | respond =>
      cases e with
      | link l => exact hdeliver rfl (Option.some.inj h)
      | _ => cases h
  | insertUser row =>
      cases e with
      | link l =>
          obtain ⟨rfl, -⟩ := Prod.mk.inj (Option.some.inj h)
          refine l.deliver_induction (P := fun u : Store => u.tokens = s.tokens) rfl ?_
          unfold Store.insertUser
          split_ifs <;> rfl
      | _ => cases h
  | hash | encode | tokeninfo | now =>
      cases e <;> cases h
      all_goals rfl

/-- The ledger after a step of a thread. -/
theorem tokenLedger_run {c : Cmd} {k : Rep c → Endpoint Unit} {log : ResetLog} {b : ResetStage}
    {q : Endpoint Unit} (hr : p.Runs i n (.call c k)) :
    tokenLedger start ⟨((s, log), Function.update p.store.2 i b), p.threads.set i ⟨n, some q⟩⟩ =
      { slot := fun email => s.redis.lookup s.now (resetKey email)
        known := issued start s
        uses := log.changes
        removed := log.deletions
        role := Function.update (resetRole p) i (roleOf n b) } := by
  have hi := (List.getElem?_eq_some_iff.1 hr).1
  simp only [tokenLedger, resetRole_set hi, Option.isSome_some, if_true]

theorem roleOf_ne_used {b : ResetStage} (hb : b ≠ .changed) (email token : String) :
    roleOf n b ≠ .used email token := by
  intro h
  cases n <;> cases b <;> first | exact hb rfl | cases h

/-- Of a step that leaves the tokens as they are, the ledger sees what the thread is at. -/
theorem reaches_of_tokens {log : ResetLog} {R : ℕ → Role String String}
    (htokens : s.tokens = p.store.1.1.tokens)
    (h : Relation.ReflGen Ledger.Step (tokenLedger start p)
      { tokenLedger start p with
        uses := log.changes
        removed := log.deletions
        role := R }) :
    Relation.ReflGen Ledger.Step (tokenLedger start p)
      { slot := fun email => s.redis.lookup s.now (resetKey email)
        known := issued start s
        uses := log.changes
        removed := log.deletions
        role := R } := by
  obtain ⟨hredis, hnow, huuids⟩ : s.redis = p.store.1.1.redis ∧ s.now = p.store.1.1.now ∧
      s.uuids = p.store.1.1.uuids := by
    simpa only [Store.tokens, Prod.mk.injEq] using htokens
  have hissued : issued start s = issued start p.store.1.1 := by
    simp only [issued, huuids]
  rw [hredis, hnow, hissued]
  exact h

/-- A thread that gives up what it was at. -/
theorem reaches_drop {k : Endpoint Unit} (hr : p.Runs i n k) (hb : p.store.2 i ≠ .changed) :
    Relation.ReflGen Ledger.Step (tokenLedger start p)
      { tokenLedger start p with role := Function.update (resetRole p) i .idle } := by
  refine .single (Ledger.Step.drop (L := tokenLedger start p) i fun email token h => ?_)
  exact roleOf_ne_used hb email token ((resetRole_of_runs hr).symm.trans h)

/-- A thread that goes on with what it was at. -/
theorem reaches_stay {k : Endpoint Unit} (hr : p.Runs i n k) :
    Relation.ReflGen Ledger.Step (tokenLedger start p)
      { tokenLedger start p with
        role := Function.update (resetRole p) i (roleOf n (p.store.2 i)) } := by
  rw [← resetRole_of_runs hr, Function.update_eq_self]
  exact .refl

theorem reaches_get {key : String} {k : Rep (.get key) → Endpoint Unit} {r : Rep (.get key)}
    (hr : p.Runs i n (.call (.get key) k)) (hmay : MayReset n (p.store.2 i) (.get key))
    (hG : InTurn start p n i e (.get key) p.store)
    (h : exec d n i e (.get key) p.store.1.1 = some (s, r)) :
    Relation.ReflGen Ledger.Step (tokenLedger start p)
      { tokenLedger start p with
        role :=
          Function.update (resetRole p) i (roleOf n (nextStage n (p.store.2 i) (.get key) r)) } := by
  obtain ⟨email, token, newPassword, rfl, hidle, rfl⟩ := hmay
  have hb : p.store.2 i ≠ .changed := by
    rw [hidle]
    exact nofun
  cases e with
  | link l =>
      match r, h with
      | none, _ => exact reaches_drop hr hb
      | some none, _ => exact reaches_drop hr hb
      | some (some stored), h =>
          rcases Link.deliver_cases (Option.some.inj h) with ⟨-, hnone⟩ | ⟨-, hnone | hfound⟩
          · cases hnone
          · cases hnone
          · by_cases htoken : stored = token
            · subst htoken
              have hslot : p.store.1.1.redis.lookup p.store.1.1.now (resetKey email) = some stored :=
                (Option.some.inj hfound).symm
              have hl : l = .ok := by
                cases l with
                | ok => rfl
                | lost | unacked => cases h
              simp only [nextStage, if_true, roleOf]
              refine .single (Ledger.Step.take (L := tokenLedger start p) i email stored ?_ hslot ?_)
              · exact (resetRole_of_runs hr).trans (by rw [hidle]; rfl)
              · exact (hG hl hslot).not_holds
            · simp only [nextStage, if_neg htoken, roleOf_idle]
              exact reaches_drop hr hb
  | _ => cases h

theorem reaches_updatePassword {address passwordHash : String}
    {k : Rep (.updatePassword address passwordHash) → Endpoint Unit}
    {r : Rep (.updatePassword address passwordHash)}
    (hr : p.Runs i n (.call (.updatePassword address passwordHash) k))
    (hmay : MayReset n (p.store.2 i) (.updatePassword address passwordHash))
    (hG : InTurn start p n i e (.updatePassword address passwordHash) p.store)
    (h : exec d n i e (.updatePassword address passwordHash) p.store.1.1 = some (s, r)) :
    Relation.ReflGen Ledger.Step (tokenLedger start p)
      { tokenLedger start p with
        uses :=
          (recordReset n i e (.updatePassword address passwordHash) p.store.1.1 p.store.1.2).changes
        removed :=
          (recordReset n i e (.updatePassword address passwordHash) p.store.1.1 p.store.1.2).deletions
        role :=
          Function.update (resetRole p) i
            (roleOf n (nextStage n (p.store.2 i) (.updatePassword address passwordHash) r)) } := by
  obtain ⟨email, token, newPassword, rfl, hvalidated, rfl⟩ := hmay
  have hb : p.store.2 i ≠ .changed := by
    rw [hvalidated]
    exact nofun
  cases e with
  | link l =>
      cases l with
      | unacked => exact absurd rfl hG
      | lost =>
          cases h
          exact reaches_drop hr hb
      | ok =>
          obtain rfl : some _ = r := (Prod.mk.inj (Option.some.inj h)).2
          simp only [recordReset, Store.updatePassword]
          cases hrows : p.store.1.1.users.filter fun u => decide (u.email = address) with
          | nil => exact reaches_drop hr hb
          | cons row rows =>
              refine .single (Ledger.Step.use (L := tokenLedger start p) i address token ?_)
              exact (resetRole_of_runs hr).trans (by rw [hvalidated]; rfl)
  | _ => cases h

theorem reaches_del {key : String} {k : Rep (.del key) → Endpoint Unit} {r : Rep (.del key)}
    (hr : p.Runs i n (.call (.del key) k)) (hmay : MayReset n (p.store.2 i) (.del key))
    (hG : InTurn start p n i e (.del key) p.store)
    (h : exec d n i e (.del key) p.store.1.1 = some (s, r)) :
    Ledger.Step (tokenLedger start p)
      { slot := fun email => s.redis.lookup s.now (resetKey email)
        known := issued start s
        uses := (recordReset n i e (.del key) p.store.1.1 p.store.1.2).changes
        removed := (recordReset n i e (.del key) p.store.1.1 p.store.1.2).deletions
        role := Function.update (resetRole p) i (roleOf n .idle) } := by
  obtain ⟨email, token, newPassword, rfl, hchanged, rfl⟩ := hmay
  have hrole : resetRole p i = .used email token :=
    (resetRole_of_runs hr).trans (by rw [hchanged]; rfl)
  cases e with
  | link l =>
      have hl : l ≠ .lost := hG
      obtain rfl : s = (p.store.1.1.del (resetKey email)).1 := by
        cases l with
        | lost => exact absurd rfl hl
        | ok | unacked => exact (Prod.mk.inj (Option.some.inj h)).1.symm
      have hslot : (fun address => (p.store.1.1.redis.del (resetKey email)).lookup p.store.1.1.now
          (resetKey address)) = Function.update (tokenLedger start p).slot email none := by
        funext address
        by_cases haddress : address = email
        · subst haddress
          rw [Function.update_self, Expiring.lookup_del_self]
        · rw [Function.update_of_ne haddress]
          exact Expiring.lookup_del_ne fun heq => haddress (resetKey_inj heq)
      simp only [recordReset, if_neg hl, roleOf_idle, Store.del, hslot]
      exact Ledger.Step.remove (L := tokenLedger start p) i email token hrole
  | _ => cases h

theorem reaches_setEx {key value : String} {ttl : ℕ} {k : Rep (.setEx key value ttl) → Endpoint Unit}
    {r : Rep (.setEx key value ttl)} (hr : p.Runs i n (.call (.setEx key value ttl) k))
    (hmay : MayReset n (p.store.2 i) (.setEx key value ttl))
    (hG : InTurn start p n i e (.setEx key value ttl) p.store)
    (h : exec d n i e (.setEx key value ttl) p.store.1.1 = some (s, r)) :
    Ledger.Step (tokenLedger start p)
      { slot := fun email => s.redis.lookup s.now (resetKey email)
        known := issued start s
        uses := p.store.1.2.changes
        removed := p.store.1.2.deletions
        role := Function.update (resetRole p) i (roleOf n .idle) } := by
  obtain ⟨email, u, rfl, hdrawn, rfl, rfl, rfl⟩ := hmay
  have hrole : resetRole p i = .drawn email u.simple :=
    (resetRole_of_runs hr).trans (by rw [hdrawn]; rfl)
  cases e with
  | link l =>
      by_cases hl : l = .lost
      · subst hl
        obtain rfl : p.store.1.1 = s := (Prod.mk.inj (Option.some.inj h)).1
        rw [roleOf_idle]
        refine Ledger.Step.drop (L := tokenLedger start p) i fun email token h => ?_
        exact absurd (hrole.symm.trans h) nofun
      · obtain rfl : s = (p.store.1.1.setEx (resetKey email) u.simple resetTtlSecs).1 := by
          cases l with
          | lost => exact absurd rfl hl
          | ok | unacked => exact (Prod.mk.inj (Option.some.inj h)).1.symm
        have hslot : (fun address => (p.store.1.1.redis.put (resetKey email) u.simple
            (p.store.1.1.now + resetTtlSecs)).lookup p.store.1.1.now (resetKey address)) =
              Function.update (tokenLedger start p).slot email (some u.simple) := by
          funext address
          by_cases haddress : address = email
          · subst haddress
            rw [Function.update_self, Expiring.lookup_put_self (Nat.le_add_right _ _)]
          · rw [Function.update_of_ne haddress]
            exact Expiring.lookup_put_ne fun heq => haddress (resetKey_inj heq)
        simp only [roleOf_idle, Store.setEx, hslot]
        refine Ledger.Step.store (L := tokenLedger start p) i email u.simple hrole ?_
        intro j token hholds hafter
        exact (hG hl (email, token) (hafter.subset (List.mem_cons_self ..)) hafter).not_holds j hholds
  | _ => cases h

theorem mem_issued {email token : String} (h : (email, token) ∈ issued start s) :
    (∃ x ∈ start.pending, x.1 = email ∧ x.2.1.simple = token) ∨
      ∃ u, (.resetRequest email, u) ∈ s.uuids ∧ u.simple = token := by
  rcases List.mem_append.1 h with hold | hnew
  · obtain ⟨x, hx, heq⟩ := List.mem_map.1 (List.mem_dedup.1 hold)
    obtain ⟨hemail, htoken⟩ := Prod.mk.inj heq
    exact .inl ⟨x, hx, hemail, htoken⟩
  · obtain ⟨⟨request, u⟩, hy, heq⟩ := List.mem_filterMap.1 hnew
    cases request with
    | resetRequest address =>
        obtain ⟨rfl, htoken⟩ := Prod.mk.inj (Option.some.inj heq)
        exact .inr ⟨u, hy, htoken⟩
    | _ => cases heq

theorem reaches_uuid {k : Rep .uuid → Endpoint Unit} {r : Rep .uuid} (hr : p.Runs i n (.call .uuid k))
    (hidle : p.store.2 i = .idle) (hG : InTurn start p n i e .uuid p.store)
    (h : exec d n i e .uuid p.store.1.1 = some (s, r)) :
    Ledger.Step (tokenLedger start p)
      { slot := fun email => s.redis.lookup s.now (resetKey email)
        known := issued start s
        uses := p.store.1.2.changes
        removed := p.store.1.2.deletions
        role := Function.update (resetRole p) i (roleOf n (nextStage n (p.store.2 i) .uuid r)) } := by
  have hrole : resetRole p i = .idle :=
    (resetRole_of_runs hr).trans (by rw [hidle]; exact roleOf_idle)
  cases e with
  | drawn u =>
      obtain ⟨rfl, rfl⟩ := Prod.mk.inj (Option.some.inj h)
      cases n with
      | resetRequest email =>
          obtain ⟨hpending, huuids⟩ := hG
          simp only [nextStage, roleOf, issued, List.filterMap_append, List.filterMap_cons,
            List.filterMap_nil, ← List.append_assoc]
          refine Ledger.Step.draw (L := tokenLedger start p) i email u.simple hrole ?_
          intro address hmem
          rcases mem_issued hmem with ⟨x, hx, -, heq⟩ | ⟨v, hv, heq⟩
          · exact hpending x hx (Uuid.ext_simple heq)
          · exact huuids _ hv (Uuid.ext_simple heq)
      | _ =>
          simp only [nextStage, roleOf_idle, issued, List.filterMap_append, List.filterMap_cons,
            List.filterMap_nil, List.append_nil]
          refine Ledger.Step.drop (L := tokenLedger start p) i fun email token h => ?_
          exact absurd (hrole.symm.trans h) nofun
  | _ => cases h

/-- Every command moves the ledger by one of its steps, or leaves it as it is. -/
theorem reaches_run {c : Cmd} {k : Rep c → Endpoint Unit} {r : Rep c}
    (hr : p.Runs i n (.call c k)) (hmay : MayReset n (p.store.2 i) c)
    (hG : InTurn start p n i e c p.store) (h : exec d n i e c p.store.1.1 = some (s, r)) :
    Relation.ReflGen Ledger.Step (tokenLedger start p)
      (tokenLedger start
        ⟨((s, recordReset n i e c p.store.1.1 p.store.1.2),
            Function.update p.store.2 i (nextStage n (p.store.2 i) c r)),
          p.threads.set i ⟨n, some (k r)⟩⟩) := by
  rw [tokenLedger_run hr]
  cases c with
  | connect | hash => exact reaches_of_tokens (tokens_exec (by trivial) h) (reaches_stay hr)
  | findUser | insertUser | encode | tokeninfo | now | respond =>
      refine reaches_of_tokens (tokens_exec (by trivial) h) ?_
      simp only [nextStage, roleOf_idle]
      exact reaches_drop hr hmay
  | get key => exact reaches_of_tokens (tokens_exec (by trivial) h) (reaches_get hr hmay hG h)
  | updatePassword address passwordHash =>
      exact reaches_of_tokens (tokens_exec (by trivial) h) (reaches_updatePassword hr hmay hG h)
  | setEx key value ttl => exact .single (reaches_setEx hr hmay hG h)
  | del key => exact .single (reaches_del hr hmay hG h)
  | uuid => exact .single (reaches_uuid hr hmay hG h)

end Steps

/-! ## Tokens are used once -/

section Runs

variable {d : Deployment} {start : Start} {p q : ResetPool}

/-- A token that was drawn for an address is no other's, and none of the start. -/
def OwnTokens (start : Start) (s : Store) : Prop :=
  ∀ email u, (.resetRequest email, u) ∈ s.uuids →
    (∀ x ∈ start.pending, x.2.1 ≠ u) ∧
      ∀ email', (.resetRequest email', u) ∈ s.uuids → email' = email

theorem ownTokens_exec {s t : Store} {n : Request} {i : ℕ} {e : Outcome} {c : Cmd} {r : Rep c}
    {b : ℕ → ResetStage} {log : ResetLog} (hs : OwnTokens start s)
    (hG : InTurn start p n i e c ((s, log), b)) (h : exec d n i e c s = some (t, r)) :
    OwnTokens start t := by
  have hsame : t.uuids = s.uuids → OwnTokens start t := by
    intro heq
    unfold OwnTokens
    rw [heq]
    exact hs
  cases c with
  | uuid =>
      cases e with
      | drawn u =>
          obtain ⟨rfl, rfl⟩ := Prod.mk.inj (Option.some.inj h)
          cases n with
          | resetRequest address =>
              obtain ⟨hpending, huuids⟩ := hG
              intro email v hv
              rcases List.mem_append.1 hv with hold | hnew
              · refine ⟨(hs email v hold).1, fun email' hv' => ?_⟩
                rcases List.mem_append.1 hv' with hold' | hnew'
                · exact (hs email v hold).2 email' hold'
                · obtain ⟨-, rfl⟩ := Prod.mk.inj (List.mem_singleton.1 hnew')
                  exact absurd rfl (huuids _ hold)
              · obtain ⟨heq, rfl⟩ := Prod.mk.inj (List.mem_singleton.1 hnew)
                refine ⟨hpending, fun email' hv' => ?_⟩
                rcases List.mem_append.1 hv' with hold' | hnew'
                · exact absurd rfl (huuids _ hold')
                · have heq' := (Prod.mk.inj (List.mem_singleton.1 hnew')).1
                  exact Request.resetRequest.inj (heq'.trans heq.symm)
          | _ =>
              intro email v hv
              rcases List.mem_append.1 hv with hold | hnew
              · refine ⟨(hs email v hold).1, fun email' hv' => ?_⟩
                rcases List.mem_append.1 hv' with hold' | hnew'
                · exact (hs email v hold).2 email' hold'
                · cases (Prod.mk.inj (List.mem_singleton.1 hnew')).1
              · cases (Prod.mk.inj (List.mem_singleton.1 hnew)).1
      | _ => cases h
  | setEx | del =>
      cases e with
      | link l => cases l <;> (obtain ⟨rfl, -⟩ := Prod.mk.inj (Option.some.inj h); exact hsame rfl)
      | _ => cases h
  | _ => exact hsame (congrArg (fun x => x.2.2) (tokens_exec (by trivial) h))

theorem environ_follows {x : Environ} {s t : Store} {ts : List (Request × Endpoint Unit)}
    (h : environ d x s = some (t, ts)) {n : Request} {q : Endpoint Unit} (hq : (n, q) ∈ ts) :
    q.Follows (MayReset n) (nextStage n) (fun _ _ => True) .idle := by
  cases x with
  | call request =>
      obtain ⟨-, rfl⟩ := Prod.mk.inj (Option.some.inj h)
      obtain ⟨rfl, rfl⟩ := Prod.mk.inj (List.mem_singleton.1 hq)
      exact follows_serve d
  | tick secs =>
      obtain ⟨-, rfl⟩ := Prod.mk.inj (Option.some.inj h)
      cases hq

theorem uuids_environ {x : Environ} {s t : Store} {ts : List (Request × Endpoint Unit)}
    (h : environ d x s = some (t, ts)) : t.uuids = s.uuids := by
  cases x <;> (obtain ⟨rfl, -⟩ := Prod.mk.inj (Option.some.inj h); rfl)

/-- The environment starts requests, which are at nothing yet, and lets tokens expire. -/
theorem reaches_environ {x : Environ} {s : Store} {ts : List (Request × Endpoint Unit)}
    (hidle : ∀ j, p.threads.length ≤ j → p.store.2 j = .idle)
    (h : environ d x p.store.1.1 = some (s, ts)) :
    Relation.ReflGen Ledger.Step (tokenLedger start p)
      (tokenLedger start ⟨((s, p.store.1.2), p.store.2), p.threads ++ Machine.start ts⟩) := by
  have hrole : resetRole ⟨((s, p.store.1.2), p.store.2), p.threads ++ Machine.start ts⟩ =
      resetRole p := resetRole_start hidle
  cases x with
  | call request =>
      obtain ⟨rfl, rfl⟩ := Prod.mk.inj (Option.some.inj h)
      unfold tokenLedger
      rw [hrole]
      exact .refl
  | tick secs =>
      obtain ⟨rfl, rfl⟩ := Prod.mk.inj (Option.some.inj h)
      refine .single ?_
      unfold tokenLedger
      rw [hrole]
      refine Ledger.Step.expire (L := tokenLedger start p) _ fun email => ?_
      cases hlater : p.store.1.1.redis.lookup (p.store.1.1.now + secs) (resetKey email) with
      | none => exact .inr rfl
      | some v =>
          have hnow := Expiring.lookup_of_later (Nat.le_add_right _ _) hlater
          exact .inl hnow.symm

/-- Every run is one of the ledger. -/
theorem reaches_step (hp : (resetMachine d start).system.ReachableUnder (InTurnRun start) p)
    {a : Act Outcome Environ} (hG : InTurnRun start p a)
    (hst : (resetMachine d start).step p a = some q) :
    Relation.ReflGen Ledger.Step (tokenLedger start p) (tokenLedger start q) ∧
      (OwnTokens start p.store.1.1 → OwnTokens start q.store.1.1) := by
  cases a with
  | environ x =>
      obtain ⟨⟨⟨s, log⟩, b⟩, ts, hs, rfl⟩ := Machine.step_environ hst
      obtain ⟨hlog, rfl⟩ := Machine.staged_environ.1 hs
      obtain ⟨hrun, rfl⟩ := Machine.logged_environ.1 hlog
      have hidle := Machine.unstarted_of_reachable hp
      refine ⟨reaches_environ hidle hrun, fun hown => ?_⟩
      unfold OwnTokens
      rw [(uuids_environ hrun : s.uuids = p.store.1.1.uuids)]
      exact hown
  | run i e =>
      obtain ⟨n, c, k, ⟨⟨s, log⟩, b⟩, r, ht, hs, rfl⟩ := Machine.step_run hst
      obtain ⟨hlog, rfl⟩ := Machine.staged_exec.1 hs
      obtain ⟨hrun, rfl⟩ := Machine.logged_exec.1 hlog
      have hG : InTurn start p n i e c p.store := by
        simpa only [InTurnRun, ht, Machine.Permits] using hG
      have hfollows : (Prog.call c k).Follows (MayReset n) (nextStage n) (fun _ _ => True)
          (p.store.2 i) := by
        apply Machine.follows_of_reachable ?_ hp i n _ ht
        intro _ x _ _ _ hx m q hq
        exact environ_follows (Machine.logged_environ.1 hx).1 hq
      exact ⟨reaches_run ht hfollows.1 hG hrun, fun hown => ownTokens_exec hown hG hrun⟩
  | crash i =>
      obtain ⟨n, c, k, ht, rfl⟩ := Machine.step_crash hst
      have hi := (List.getElem?_eq_some_iff.1 ht).1
      refine ⟨?_, id⟩
      have hrole : resetRole ⟨p.store, p.threads.set i ⟨n, none⟩⟩ =
          Function.update (resetRole p) i .idle := by
        have hset := resetRole_set (u := p.store.1) (b := p.store.2 i) (n := n) (q := none) hi
        rwa [Function.update_eq_self] at hset
      show Relation.ReflGen Ledger.Step (tokenLedger start p)
        (tokenLedger start ⟨p.store, p.threads.set i ⟨n, none⟩⟩)
      unfold tokenLedger
      rw [hrole]
      exact reaches_drop ht hG

theorem sound_start {b : ℕ → ResetStage} :
    (tokenLedger start ⟨((start.store, ⟨[], []⟩), b), []⟩).Sound := by
  have hrole : resetRole ⟨((start.store, ⟨[], []⟩), b), []⟩ = fun _ => .idle :=
    funext fun _ => rfl
  unfold tokenLedger
  rw [hrole]
  refine Ledger.Sound.initial ?_ fun email token hslot => ?_
  · refine List.nodup_append.2 ⟨List.nodup_dedup _, List.nodup_nil, nofun⟩
  · obtain ⟨deadline, hstored, -⟩ := Expiring.lookup_eq_some_iff.1 hslot
    obtain ⟨x, hx, hkey, rfl⟩ := stored_of_pending hstored
    obtain rfl := resetKey_inj hkey
    exact List.mem_append_left _ (List.mem_dedup.2 (List.mem_map_of_mem hx))

theorem sound_of_reachable
    (h : (resetMachine d start).system.ReachableUnder (InTurnRun start) p) :
    (tokenLedger start p).Sound ∧ OwnTokens start p.store.1.1 := by
  induction h with
  | @init p h0 =>
      obtain ⟨⟨⟨s, log⟩, b⟩, ts⟩ := p
      obtain ⟨⟨⟨hs, hlog⟩, -⟩, hts⟩ := h0
      obtain rfl : s = start.store := hs
      obtain rfl : log = ⟨[], []⟩ := hlog
      obtain rfl : ts = [] := hts
      exact ⟨sound_start, nofun⟩
  | step hp hG hst ih =>
      obtain ⟨hreaches, hown⟩ := reaches_step hp hG hst
      refine ⟨?_, hown ih.2⟩
      rcases (Relation.reflGen_iff _ _ _).1 hreaches with heq | hstep
      · rw [heq]
        exact ih.1
      · exact hstep.sound ih.1

/-- In the runs in which calls take turns, no token is used twice and no newer one is deleted. -/
theorem tokens_single_use
    (h : (resetMachine d start).system.ReachableUnder (InTurnRun start) p) :
    SingleUse start p.store.1.1 p.store.1.2 := by
  obtain ⟨hL, hown⟩ := sound_of_reachable h
  refine ⟨fun email u hu => ?_, hL.once, hL.removed_old⟩
  -- all that was changed with this token is the password of the address it was drawn for
  have haddress : ∀ x ∈ p.store.1.2.changes, decide (x.2 = u.simple) = true →
      (x == (email, u.simple)) = true := by
    rintro ⟨address, token⟩ hx htoken
    obtain rfl : token = u.simple := of_decide_eq_true htoken
    rcases mem_issued (hL.uses_known _ hx) with ⟨y, hy, -, heq⟩ | ⟨v, hv, heq⟩
    · exact absurd (Uuid.ext_simple heq) ((hown email u hu).1 y hy)
    · obtain rfl := Uuid.ext_simple heq
      rw [(hown email v hu).2 address hv]
      exact beq_self_eq_true _
  calc p.store.1.2.changes.countP (fun x => decide (x.2 = u.simple))
      ≤ p.store.1.2.changes.countP (fun x => x == (email, u.simple)) :=
        List.countP_mono_left haddress
    _ ≤ 1 := List.nodup_iff_count_le_one.1 hL.once _

end Runs

def laterToken : Uuid :=
  ⟨"7d444840953b4e6e8f0c1a5d2b9c3e11", by decide⟩

/-- A token is asked for. -/
def asks (i : ℕ) (u : Uuid) : List (Act Outcome Environ) :=
  .environ (.call (.resetRequest "root@bookit.test")) :: commands i 2 ++
    .run i (.drawn u) :: commands i 2

/-- A call with the first token comes, up to its read. -/
def reads (i : ℕ) (newPassword : String) : List (Act Outcome Environ) :=
  .environ (.call (.resetConfirm "root@bookit.test" resetToken.simple newPassword)) :: commands i 1

/-- The rest of the call. -/
def finishes (i : ℕ) (newPassword : String) : List (Act Outcome Environ) :=
  .run i (.hashed (some ("$2b$12$" ++ newPassword))) :: commands i 4

/-- Two calls in turn, each with its own token stored. -/
theorem tokens_single_use_two : ∃ p : ResetPool,
    p.store.1.2.changes = [("root@bookit.test", resetToken.simple)] ∧
      p.store.1.1.redis.lookup p.store.1.1.now (resetKey "root@bookit.test") =
        some laterToken.simple ∧
      SingleUse oneAdmin p.store.1.1 p.store.1.2 := by
  obtain ⟨p, hp, htest⟩ := System.exists_reachable_of_runUnder (resetMachine demo oneAdmin).system
    (InTurnRun oneAdmin)
    (fun p => decide (p.store.1.2.changes = [("root@bookit.test", resetToken.simple)] ∧
      p.store.1.1.redis.lookup p.store.1.1.now (resetKey "root@bookit.test") =
        some laterToken.simple))
    (s := ⟨((oneAdmin.store, ⟨[], []⟩), fun _ => .idle), []⟩) ⟨⟨⟨rfl, rfl⟩, rfl⟩, rfl⟩
    (asks 0 resetToken ++ reads 1 "letmein8" ++ finishes 1 "letmein8" ++ reads 2 "letmein9" ++
      asks 3 laterToken)
    (by decide +kernel)
  obtain ⟨hchanges, hstored⟩ := of_decide_eq_true htest
  exact ⟨p, hchanges, hstored, tokens_single_use hp⟩

/-- Two calls read the token before either deletes it: both change the password, and the second
deletes the token that was asked for in between. -/
theorem token_used_twice : ∃ p : ResetPool, (resetMachine demo oneAdmin).system.Reachable p ∧
    (.resetRequest "root@bookit.test", resetToken) ∈ p.store.1.1.uuids ∧
    p.store.1.2.changes.countP (fun x => decide (x.2 = resetToken.simple)) = 2 ∧
    ∃ x ∈ p.store.1.2.deletions,
      Ledger.After (issued oneAdmin p.store.1.1) x.1 x.2.1 x.2.2 := by
  have hinit : (resetMachine demo oneAdmin).system.init
      ⟨((oneAdmin.store, ⟨[], []⟩), fun _ => .idle), []⟩ := ⟨⟨⟨rfl, rfl⟩, rfl⟩, rfl⟩
  obtain ⟨p, hp, htest⟩ := System.exists_reachable_of_run (resetMachine demo oneAdmin).system
    (fun p => decide ((.resetRequest "root@bookit.test", resetToken) ∈ p.store.1.1.uuids ∧
      p.store.1.2.changes.countP (fun x => decide (x.2 = resetToken.simple)) = 2 ∧
      ∃ x ∈ p.store.1.2.deletions,
        Ledger.After (issued oneAdmin p.store.1.1) x.1 x.2.1 x.2.2))
    hinit
    (asks 0 resetToken ++ reads 1 "letmein8" ++ reads 2 "letmein9" ++ finishes 1 "letmein8" ++
      asks 3 laterToken ++ finishes 2 "letmein9")
    (by decide +kernel)
  exact ⟨p, hp, of_decide_eq_true htest⟩

end Accounts
end Bookit
