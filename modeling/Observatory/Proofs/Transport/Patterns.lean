import Observatory.Proofs.Transport.Idle

/-!
# Readers of patterns and of keys

Readers of keys and readers of patterns are fed by different channels. As long as they keep up, that
makes no difference: of the events that it listens to, a reader gets all that were published since
it was registered, each of them once and in the order in which they were published.
-/

namespace Observatory

variable {P Q : Stamped → Bool} {limit : Nat} {inbox : Inbox} {rest : List Stamped} {w : Stamped}

/-- The event of a poll, if there is one. -/
def Poll.items {α : Type} : Poll α → List α
  | .item a => [a]
  | .pending | .ended => []

/-! ## Inboxes -/

namespace Inbox

def backlogOf (backlogs : Table EventKey (List Stamped)) (key : EventKey) : List Stamped :=
  (backlogs.get? key).getD []

/-- No backlog is longer than `limit`. -/
def Fits (limit : Nat) : Inbox → Prop
  | .keys backlogs _ => ∀ key, (backlogOf backlogs key).length ≤ limit
  | .pattern _ backlog => backlog.length ≤ limit

/-- Of the published events for which `P` holds, the inbox has `rest` for its reader. These are the
events for which `Q` holds among those that it gives. -/
inductive Owes : (P Q : Stamped → Bool) → Inbox → (rest : List Stamped) → Prop where
  /-- The reader of a pattern gets nothing else. -/
  | pattern (p : KeyPattern) (backlog : List Stamped) :
      Owes (fun w => p.accepts w.key) (fun _ => true) (.pattern p backlog)
        (backlog.filter fun w => p.accepts w.key)
  | keys {backlogs : Table EventKey (List Stamped)} {ready : List EventKey} {key : EventKey}
      (hkey : backlogs.contains key = true)
      (hfiled : ∀ key, ∀ w ∈ backlogOf backlogs key, w.key = key)
      (hready : ∀ key, backlogOf backlogs key ≠ [] → key ∈ ready) :
      Owes (fun w => w.key = key) (fun w => w.key = key) (.keys backlogs ready)
        (backlogOf backlogs key)

variable {backlogs : Table EventKey (List Stamped)} {ready : List EventKey} {key : EventKey}

theorem backlogOf_insert (backlogs : Table EventKey (List Stamped)) (key : EventKey)
    (backlog : List Stamped) (key' : EventKey) :
    backlogOf (backlogs.insert key backlog) key' =
      if key' = key then backlog else backlogOf backlogs key' := by
  unfold backlogOf
  split
  next heq =>
    rw [heq, Table.get?_insert_self]
    rfl
  next hne => rw [Table.get?_insert_of_ne _ _ hne]

theorem backlogOf_push (hkey : backlogs.contains w.key = true) (key : EventKey) :
    backlogOf (backlogs.modify w.key (· ++ [w])) key =
      backlogOf backlogs key ++ [w].filter fun w => w.key = key := by
  unfold backlogOf
  by_cases heq : key = w.key
  · obtain ⟨backlog, hbacklog⟩ := Option.isSome_iff_exists.1 hkey
    subst heq
    rw [Table.get?_modify_self, hbacklog]
    simp
  · rw [Table.get?_modify_of_ne _ _ heq]
    simp [Ne.symm heq]

theorem owes_ofKeys {keys : List EventKey} (hkey : key ∈ keys) :
    Owes (fun w => w.key = key) (fun w => w.key = key) (ofKeys keys) [] := by
  have hnone : ∀ key', backlogOf ⟨keys.map fun key => (key, [])⟩ key' = [] := by
    intro key'
    unfold backlogOf
    cases hbacklog : Table.get? ⟨keys.map fun key => (key, ([] : List Stamped))⟩ key' with
    | none => rfl
    | some backlog => exact empty_ofKeys keys key' backlog hbacklog
  rw [← hnone key]
  refine .keys ?_ (fun key' w hw => ?_) fun key' hne => absurd (hnone key') hne
  · simp [Table.contains_iff_mem_keys, Table.keys, hkey]
  · rw [hnone] at hw
    cases hw

theorem Owes.arrive (h : Owes P Q inbox rest) (w : Stamped) :
    Owes P Q (inbox.arrive w) (rest ++ [w].filter P) := by
  cases h with
  | pattern p backlog =>
    rw [← List.filter_append]
    exact .pattern p (backlog ++ [w])
  | @keys backlogs ready key hkey hfiled hready =>
    change Owes _ _ (.keys (backlogs.modify w.key (· ++ [w]))
      (if backlogs.contains w.key && !ready.contains w.key then ready ++ [w.key] else ready)) _
    cases hcontains : backlogs.contains w.key with
    | false =>
      -- Nothing arrives, and the event is not one of those that are owed.
      have hne : w.key ≠ key := by
        rintro rfl
        rw [hkey] at hcontains
        cases hcontains
      rw [Table.modify_of_contains hcontains]
      simpa [hne] using Owes.keys hkey hfiled hready
    | true =>
      rw [← backlogOf_push hcontains, Bool.true_and]
      refine .keys (by rw [Table.contains_modify, hkey]) (fun key' w' hw' => ?_) fun key' hne => ?_
      · rw [backlogOf_push hcontains, List.mem_append] at hw'
        rcases hw' with hold | hnew
        · exact hfiled key' w' hold
        · exact of_decide_eq_true (List.mem_filter.1 hnew).2
      · rw [backlogOf_push hcontains] at hne
        by_cases heq : key' = w.key
        · subst heq
          cases hin : ready.contains w.key with
          | true => simpa using hin
          | false => simp
        · have hold : key' ∈ ready := by
            refine hready key' fun hnil => hne ?_
            simp [hnil, Ne.symm heq]
          split
          · exact List.mem_append_left _ hold
          · exact hold

/-- What asking the keys of a list comes to where no backlog is too long: the result, and the inbox
afterwards. -/
inductive Asked (backlogs : Table EventKey (List Stamped)) (ready : List EventKey) :
    Poll Stamped → Inbox → Prop where
  | pending {backlogs' : Table EventKey (List Stamped)}
      (hnone : ∀ key ∈ ready, backlogOf backlogs key = [])
      (hcontains : ∀ key, backlogs.contains key = true → backlogs'.contains key = true)
      (hsame : ∀ key, backlogOf backlogs' key = backlogOf backlogs key) :
      Asked backlogs ready .pending (.keys backlogs' [])
  | item {key : EventKey} {w : Stamped} {rest : List Stamped}
      {backlogs' : Table EventKey (List Stamped)} {ready' : List EventKey}
      (hbacklog : backlogOf backlogs key = w :: rest)
      (hcontains : ∀ key, backlogs.contains key = true → backlogs'.contains key = true)
      (hafter : ∀ key', backlogOf backlogs' key' =
        if key' = key then rest else backlogOf backlogs key')
      (hready : ∀ key' ∈ ready, backlogOf backlogs key' = [] ∨ key' ∈ ready') :
      Asked backlogs ready (.item w) (.keys backlogs' ready')

theorem kept_of_length_le {backlog : List Stamped} (h : backlog.length ≤ limit) :
    kept limit backlog = backlog := by
  rw [kept, Nat.sub_eq_zero_of_le h, List.drop_zero]

theorem contains_insert_of (backlog : List Stamped) (key : EventKey) {key' : EventKey}
    (h : backlogs.contains key' = true) : (backlogs.insert key backlog).contains key' = true := by
  rw [Table.contains_insert, h, Bool.or_true]

theorem Asked.skip {result : Poll Stamped} {after : Inbox}
    (h : Asked (backlogs.insert key []) ready result after) (hnil : backlogOf backlogs key = []) :
    Asked backlogs (key :: ready) result after := by
  have hinsert : ∀ key', backlogOf (backlogs.insert key []) key' = backlogOf backlogs key' := by
    intro key'
    rw [backlogOf_insert]
    split
    next heq => rw [heq, hnil]
    next => rfl
  cases h with
  | pending hnone hcontains hsame =>
    refine .pending (List.forall_mem_cons.2 ⟨hnil, fun key' hkey' => ?_⟩)
      (fun key' h => hcontains key' (contains_insert_of [] key h)) fun key' => ?_
    · rw [← hinsert]
      exact hnone key' hkey'
    · rw [hsame, hinsert]
  | item hbacklog hcontains hafter hready =>
    refine .item ((hinsert _).symm.trans hbacklog)
      (fun key' h => hcontains key' (contains_insert_of [] key h)) (fun key' => ?_)
      (List.forall_mem_cons.2 ⟨.inl hnil, fun key' hkey' => ?_⟩)
    · rw [hafter, hinsert]
    · rw [← hinsert]
      exact hready key' hkey'

theorem asked_ask (hfits : ∀ key, (backlogOf backlogs key).length ≤ limit) :
    Asked backlogs ready (ask limit backlogs ready).result (ask limit backlogs ready).inbox := by
  -- A key that is passed over keeps an empty backlog, so the induction is for all backlogs.
  induction ready generalizing backlogs with
  | nil => exact .pending (List.forall_mem_nil _) (fun _ h => h) fun _ => rfl
  | cons key ready ih =>
    have hkept : kept limit ((backlogs.get? key).getD []) = backlogOf backlogs key :=
      kept_of_length_le (hfits key)
    simp only [ask, hkept]
    cases hbacklog : backlogOf backlogs key with
    | nil =>
      refine Asked.skip (ih fun key' => ?_) hbacklog
      rw [backlogOf_insert]
      split
      · exact Nat.zero_le limit
      · exact hfits key'
    | cons w rest =>
      refine .item hbacklog (fun key' h => contains_insert_of rest key h)
        (backlogOf_insert backlogs key rest) fun key' hkey' => .inr ?_
      rcases List.mem_cons.1 hkey' with rfl | hlater
      · exact List.mem_append_right _ List.mem_cons_self
      · exact List.mem_append_left _ hlater

theorem filter_eq_found (P : Stamped → Bool) (backlog : List Stamped) :
    let found := backlog.dropWhile fun w => !P w
    backlog.filter P = found.head?.toList ++ found.tail.filter P := by
  induction backlog with
  | nil => rfl
  | cons w backlog ih =>
    rw [List.dropWhile_cons, List.filter_cons]
    cases P w with
    | true => rfl
    | false => exact ih

/-- What was owed on a key is what is found there, and what is still owed. -/
theorem Asked.owes {result : Poll Stamped} {after : Inbox} (h : Asked backlogs ready result after)
    (hkey : backlogs.contains key = true)
    (hfiled : ∀ key, ∀ w ∈ backlogOf backlogs key, w.key = key)
    (hready : ∀ key, backlogOf backlogs key ≠ [] → key ∈ ready) :
    result ≠ .ended ∧ (result = .pending → backlogOf backlogs key = []) ∧
      ∃ rest, Owes (fun w => w.key = key) (fun w => w.key = key) after rest ∧
        backlogOf backlogs key = result.items.filter (fun w => w.key = key) ++ rest := by
  cases h with
  | @pending backlogs' hnone hcontains hsame =>
    have hall : ∀ key, backlogOf backlogs key = [] := by
      intro key
      by_contra hne
      exact hne (hnone key (hready key hne))
    refine ⟨by simp, fun _ => hall key, backlogOf backlogs' key,
      .keys (hcontains key hkey) (fun key' w hw => ?_) fun key' hne => ?_, ?_⟩
    · rw [hsame, hall] at hw
      cases hw
    · rw [hsame] at hne
      exact absurd (hall key') hne
    · rw [hsame]
      rfl
  | @item first w rest backlogs' ready' hbacklog hcontains hafter hstill =>
    have hw : w.key = first := hfiled first w (hbacklog ▸ List.mem_cons_self)
    -- On every other key nothing has changed.
    have htail : ∀ key', backlogOf backlogs key' =
        [w].filter (fun w => w.key = key') ++ backlogOf backlogs' key' := by
      intro key'
      rw [hafter]
      by_cases heq : key' = first
      · rw [if_pos heq, heq, hbacklog]
        simp [hw]
      · rw [if_neg heq]
        simp [hw, Ne.symm heq]
    refine ⟨by simp, by simp, backlogOf backlogs' key,
      .keys (hcontains key hkey) (fun key' x hx => ?_) fun key' hne => ?_, htail key⟩
    · refine hfiled key' x ?_
      rw [htail key']
      exact List.mem_append_right _ hx
    · have hold : backlogOf backlogs key' ≠ [] := by
        rw [htail key']
        exact List.append_ne_nil_of_right_ne_nil _ hne
      exact (hstill key' (hready key' hold)).resolve_left hold

/-- A reader that keeps up gets what it is owed. -/
theorem Owes.take (h : Owes P Q inbox rest) (hfits : inbox.Fits limit) :
    (inbox.take limit).result ≠ .ended ∧ ((inbox.take limit).result = .pending → rest = []) ∧
      ∃ rest', Owes P Q (inbox.take limit).inbox rest' ∧
        rest = (inbox.take limit).result.items.filter Q ++ rest' := by
  cases h with
  | pattern p backlog =>
    have hfound := filter_eq_found (fun w => p.accepts w.key) backlog
    simp only [Inbox.take, kept_of_length_le hfits]
    rw [hfound]
    cases backlog.dropWhile fun w => !p.accepts w.key with
    | nil => exact ⟨by simp, fun _ => rfl, [], .pattern p [], rfl⟩
    | cons w found => exact ⟨by simp, by simp, _, .pattern p found, rfl⟩
  | @keys backlogs ready key hkey hfiled hready =>
    have hsome : backlogs.isEmpty = false := by
      rw [← Bool.not_eq_true, Table.isEmpty_iff]
      intro hnone
      rw [hnone key] at hkey
      cases hkey
    simp only [Inbox.take, hsome, Bool.false_eq_true, if_false]
    exact (asked_ask hfits).owes hkey hfiled hready

theorem Owes.eq_nil (h : Owes P Q inbox rest) (hquiet : inbox.isQuiet = true) : rest = [] := by
  cases h with
  | pattern p backlog =>
    obtain rfl : backlog = [] := List.isEmpty_iff.1 hquiet
    rfl
  | @keys backlogs ready key _ _ hready =>
    obtain rfl : ready = [] := List.isEmpty_iff.1 (Bool.and_eq_true_iff.1 hquiet).2
    by_contra hne
    cases hready key hne

end Inbox

/-! ## Readers -/

namespace Keyspace

variable {t t' : Keyspace} {boxes : ReaderId → Option Inbox} {id id' : ReaderId}
  {got wanted : List Stamped}

/-- How far a reader is behind, on each channel that it follows. -/
def behind (t : Keyspace) : KeyspaceReader → List Nat
  | .keys feed => feed.offsets.entries.map fun place => t.channelHead place.1 - place.2
  | .pattern _ offset => [t.stream.head - offset]

/-- Whether a reader is nowhere further behind than by `limit` events. -/
def keepsUp (t : Keyspace) (limit : Nat) (id : ReaderId) : Bool :=
  (t.readers.get? id).all fun reader => (t.behind reader).all (· ≤ limit)

theorem Keeps.fits (h : t.Keeps limit boxes) (hbox : boxes id = some inbox)
    (hup : t.keepsUp limit id = true) : inbox.Fits limit := by
  have hrel := h.readers id
  unfold keepsUp at hup
  rw [hbox] at hrel
  generalize t.readers.get? id = x at hrel hup
  cases hrel with | some hbacks
  rw [Option.all_some, List.all_eq_true] at hup
  cases hbacks with
  | @keys feed backlogs ready htracks hturns =>
    intro key
    unfold Inbox.backlogOf
    cases hbacklog : backlogs.get? key with
    | none => exact Nat.zero_le limit
    | some backlog =>
      obtain ⟨channel, -, window, offset, hwindow, hoffset, hlags⟩ := htracks.there hbacklog
      have hplace : t.channelHead channel - offset ∈ t.behind (.keys feed) :=
        List.mem_map.2 ⟨_, Table.mem_entries_of_get? hoffset, rfl⟩
      have hhead := hlags.head
      have hbehind := of_decide_eq_true (hup _ hplace)
      simp only [channelHead, hwindow, Option.map_some, Option.getD_some] at hbehind ⊢
      omega
  | @pattern p offset backlog hlags =>
    have hhead := hlags.head
    have hbehind := of_decide_eq_true (hup _ List.mem_cons_self)
    change backlog.length ≤ limit
    omega

theorem Keeps.next_any (h : t.Keeps limit boxes) (id' : ReaderId) : ∃ boxes',
    (t.next id').transport.Keeps limit boxes' ∧ ∀ id, id ≠ id' → boxes' id = boxes id := by
  cases hbox : boxes id' with
  | none =>
    rw [h.next_of_none hbox]
    exact ⟨boxes, h, fun _ _ => rfl⟩
  | some inbox => exact ⟨_, (h.next hbox).2.2, fun _ hid => Function.update_of_ne hid ..⟩

/-- The reader has got all of `wanted` but what is still before it. -/
def Serves (t : Keyspace) (limit : Nat) (id : ReaderId) (P Q : Stamped → Bool)
    (got wanted : List Stamped) : Prop :=
  ∃ boxes inbox rest, t.Keeps limit boxes ∧ boxes id = some inbox ∧ inbox.Owes P Q rest ∧
    wanted = got ++ rest

namespace Serves

theorem got_initial (h : t.Serves limit id P Q got wanted) : got <+: wanted := by
  obtain ⟨boxes, inbox, rest, -, -, -, rfl⟩ := h
  exact List.prefix_append got rest

theorem frame (h : t.Serves limit id P Q got wanted)
    (hsame : ∀ boxes, t.Keeps limit boxes → ∃ boxes', t'.Keeps limit boxes' ∧
      boxes' id = boxes id) : t'.Serves limit id P Q got wanted := by
  obtain ⟨boxes, inbox, rest, hkeeps, hbox, howes, rfl⟩ := h
  obtain ⟨boxes', hafter, hid⟩ := hsame boxes hkeeps
  exact ⟨boxes', inbox, rest, hafter, hid.trans hbox, howes, rfl⟩

theorem publish (h : t.Serves limit id P Q got wanted) {w : Stamped}
    (hpublish : t.publish w = .ok t') : t'.Serves limit id P Q got (wanted ++ [w].filter P) := by
  obtain ⟨boxes, inbox, rest, hkeeps, hbox, howes, rfl⟩ := h
  obtain ⟨t'', ht'', hafter⟩ := hkeeps.publish w
  cases ht''.symm.trans hpublish
  exact ⟨_, inbox.arrive w, _, hafter, by rw [hbox, Option.map_some], howes.arrive w,
    List.append_assoc got rest _⟩

theorem drop (h : t.Serves limit id P Q got wanted) (hid : id ≠ id') :
    (t.drop id').Serves limit id P Q got wanted :=
  h.frame fun _ hkeeps => ⟨_, hkeeps.drop id', Function.update_of_ne hid ..⟩

theorem next_other (h : t.Serves limit id P Q got wanted) (hid : id ≠ id') :
    (t.next id').transport.Serves limit id P Q got wanted := by
  refine h.frame fun boxes hkeeps => ?_
  obtain ⟨boxes', hafter, hothers⟩ := hkeeps.next_any id'
  exact ⟨boxes', hafter, hothers id hid⟩

theorem got_all (h : t.Serves limit id P Q got wanted) (hquiet : t.isQuiet id = true) :
    got = wanted := by
  obtain ⟨boxes, inbox, rest, hkeeps, hbox, howes, rfl⟩ := h
  rw [hkeeps.isQuiet_eq, hbox, Option.any_some] at hquiet
  rw [howes.eq_nil hquiet, List.append_nil]

/-- A reader that keeps up gets the first event that it has not got yet. -/
theorem next (h : t.Serves limit id P Q got wanted) (hup : t.keepsUp limit id = true) :
    (t.next id).result ≠ .ended ∧ ((t.next id).result = .pending → got = wanted) ∧
      (t.next id).transport.Serves limit id P Q (got ++ (t.next id).result.items.filter Q)
        wanted := by
  obtain ⟨boxes, inbox, rest, hkeeps, hbox, howes, rfl⟩ := h
  obtain ⟨hresult, -, hafter⟩ := hkeeps.next hbox
  obtain ⟨hopen, hpending, rest', howes', hrest⟩ := howes.take (hkeeps.fits hbox hup)
  rw [hresult]
  refine ⟨hopen, fun hnone => ?_, _, _, rest', hafter, Function.update_self .., howes', ?_⟩
  · rw [hpending hnone, List.append_nil]
  · rw [hrest, List.append_assoc]

end Serves

/-! ## Requests -/

/-- What is asked of a keyspace. -/
inductive Request where
  | publish (w : Stamped)
  | subscribe (id : ReaderId) (keys : List EventKey)
  | watch (id : ReaderId) (p : KeyPattern)
  | read (id : ReaderId)
  | drop (id : ReaderId)

/-- Whether the request removes the reader, or puts another one in its place. -/
def Request.replaces (id : ReaderId) : Request → Bool
  | .subscribe id' _ | .watch id' _ | .drop id' => id' = id
  | .publish _ | .read _ => false

/-- Whether the reader may be served otherwise after the request. -/
def Request.concerns (id : ReaderId) : Request → Bool
  | .publish _ => true
  | .subscribe id' _ | .watch id' _ | .read id' | .drop id' => id' = id

/-- The events that are published, in order. -/
def published (requests : List Request) : List Stamped :=
  requests.filterMap fun
    | .publish w => some w
    | _ => none

variable {request : Request} {requests : List Request}

/-- The keyspace after a request. -/
def serve (t : Keyspace) : Request → Keyspace
  | .publish w => (t.publish w).toOption.getD t
  | .subscribe id keys => (t.subscribe id keys).toOption.getD t
  | .watch id p => (t.patternSubscribe id p).toOption.getD t
  | .read id => (t.next id).transport
  | .drop id => t.drop id

def serveAll (t : Keyspace) (requests : List Request) : Keyspace :=
  requests.foldl serve t

/-- What a reader gets by a request. -/
def gives (t : Keyspace) (id : ReaderId) : Request → List Stamped
  | .read id' => if id' = id then (t.next id').result.items else []
  | _ => []

/-- What a reader gets by a sequence of requests. -/
def received (t : Keyspace) (id : ReaderId) : List Request → List Stamped
  | [] => []
  | request :: requests => t.gives id request ++ (t.serve request).received id requests

/-- A request leaves the inboxes as they are that it does not concern. -/
theorem Keeps.serve (h : t.Keeps limit boxes) (request : Request) : ∃ boxes',
    (t.serve request).Keeps limit boxes' ∧
      ∀ id, request.concerns id = false → boxes' id = boxes id := by
  have hother : ∀ {id id' : ReaderId}, decide (id' = id) = false → id ≠ id' :=
    fun hid heq => of_decide_eq_false hid heq.symm
  cases request with
  | publish w =>
    obtain ⟨t', ht', hafter⟩ := h.publish w
    rw [Keyspace.serve, ht']
    exact ⟨_, hafter, fun id hconcerns => nomatch hconcerns⟩
  | subscribe id' keys =>
    obtain ⟨t', ht', hafter⟩ := h.subscribe id' keys
    rw [Keyspace.serve, ht']
    exact ⟨_, hafter, fun id hid => Function.update_of_ne (hother hid) ..⟩
  | watch id' p =>
    obtain ⟨t', ht', hafter⟩ := h.patternSubscribe id' p
    rw [Keyspace.serve, ht']
    exact ⟨_, hafter, fun id hid => Function.update_of_ne (hother hid) ..⟩
  | read id' =>
    obtain ⟨boxes', hafter, hothers⟩ := h.next_any id'
    exact ⟨boxes', hafter, fun id hid => hothers id (hother hid)⟩
  | drop id' => exact ⟨_, h.drop id', fun id hid => Function.update_of_ne (hother hid) ..⟩

theorem Keeps.serveAll (h : t.Keeps limit boxes) (requests : List Request) :
    ∃ boxes', (t.serveAll requests).Keeps limit boxes' := by
  induction requests generalizing t boxes with
  | nil => exact ⟨boxes, h⟩
  | cons request requests ih =>
    obtain ⟨boxes', hafter, -⟩ := h.serve request
    exact ih hafter

/-- A request publishes one event at most, and gives the reader one at most. -/
theorem Serves.serve (h : t.Serves limit id P Q got wanted)
    (hup : request = .read id → t.keepsUp limit id = true) (hstays : request.replaces id = false) :
    (t.serve request).Serves limit id P Q (got ++ (t.gives id request).filter Q)
      (wanted ++ (published [request]).filter P) := by
  -- What other readers ask for leaves this one as it is.
  have hframe : request.concerns id = false → t.gives id request = [] → published [request] = [] →
      (t.serve request).Serves limit id P Q (got ++ (t.gives id request).filter Q)
        (wanted ++ (published [request]).filter P) := by
    intro hconcerns hgives hpublished
    rw [hgives, hpublished, List.filter_nil, List.filter_nil, List.append_nil, List.append_nil]
    refine h.frame fun boxes hkeeps => ?_
    obtain ⟨boxes', hafter, hothers⟩ := hkeeps.serve request
    exact ⟨boxes', hafter, hothers id hconcerns⟩
  cases request with
  | publish w =>
    have hgives : t.gives id (.publish w) = [] := rfl
    rw [hgives, List.filter_nil, List.append_nil]
    cases hpublish : t.publish w with
    | ok t' =>
      rw [Keyspace.serve, hpublish]
      exact h.publish hpublish
    | error error =>
      obtain ⟨boxes, inbox, rest, hkeeps, -⟩ := h
      obtain ⟨t', ht', -⟩ := hkeeps.publish w
      rw [ht'] at hpublish
      cases hpublish
  | read id' =>
    by_cases hid : id' = id
    · subst hid
      have hpublished : published [.read id'] = [] := rfl
      rw [gives, if_pos rfl, hpublished, List.filter_nil, List.append_nil]
      exact (h.next (hup rfl)).2.2
    · exact hframe (decide_eq_false hid) (if_neg hid) rfl
  | subscribe id' keys => exact hframe hstays rfl rfl
  | watch id' p => exact hframe hstays rfl rfl
  | drop id' => exact hframe hstays rfl rfl

theorem published_cons (request : Request) (requests : List Request) :
    published (request :: requests) = published [request] ++ published requests :=
  List.filterMap_append (l := [request])

/-- A reader that keeps up along a run, and is neither removed nor replaced, is served. -/
theorem Serves.serveAll (h : t.Serves limit id P Q got wanted)
    (hup : ∀ early, early <+: requests → (t.serveAll early).keepsUp limit id = true)
    (hstays : ∀ request ∈ requests, request.replaces id = false) :
    (t.serveAll requests).Serves limit id P Q (got ++ (t.received id requests).filter Q)
      (wanted ++ (published requests).filter P) := by
  induction requests generalizing t got wanted with
  | nil =>
    have hpublished : published [] = [] := rfl
    rw [received, hpublished, List.filter_nil, List.filter_nil, List.append_nil, List.append_nil]
    exact h
  | cons request requests ih =>
    -- The first request is served where the reader keeps up with nothing done yet.
    have hfirst := h.serve (fun _ => hup [] List.nil_prefix) (hstays request List.mem_cons_self)
    have hrest := ih hfirst (fun early hearly => hup (request :: early)
      ((List.prefix_cons_inj request).2 hearly))
      fun request hrequest => hstays request (List.mem_cons_of_mem _ hrequest)
    rw [received, published_cons, List.filter_append, List.filter_append, ← List.append_assoc,
      ← List.append_assoc]
    exact hrest

/-! ## Two ways to listen -/

theorem Keeps.serves_watch (h : t.Keeps limit boxes) (id : ReaderId) (p : KeyPattern) :
    (t.serve (.watch id p)).Serves limit id (fun w => p.accepts w.key) (fun _ => true) [] [] := by
  obtain ⟨t', ht', hafter⟩ := h.patternSubscribe id p
  rw [Keyspace.serve, ht']
  exact ⟨_, _, [], hafter, Function.update_self .., .pattern p [], rfl⟩

theorem Keeps.serves_subscribe (h : t.Keeps limit boxes) (id : ReaderId) {keys : List EventKey}
    {key : EventKey} (hkey : key ∈ keys) : (t.serve (.subscribe id keys)).Serves limit id
      (fun w => w.key = key) (fun w => w.key = key) [] [] := by
  obtain ⟨t', ht', hafter⟩ := h.subscribe id keys
  rw [Keyspace.serve, ht']
  exact ⟨_, _, [], hafter, Function.update_self ..,
    Inbox.owes_ofKeys (EventKey.mem_sortDistinct.2 hkey), rfl⟩

theorem serveAll_append (t : Keyspace) (requests requests' : List Request) :
    t.serveAll (requests ++ requests') = (t.serveAll requests).serveAll requests' :=
  List.foldl_append

/-- The reader keeps up along a run, and is neither removed nor replaced. -/
structure Attends (t : Keyspace) (limit : Nat) (id : ReaderId) (requests : List Request) :
    Prop where
  keepsUp : ∀ early, early <+: requests → (t.serveAll early).keepsUp limit id = true
  stays : ∀ request ∈ requests, request.replaces id = false

instance (t : Keyspace) (limit : Nat) (id : ReaderId) (requests : List Request) :
    Decidable (t.Attends limit id requests) :=
  decidable_of_iff ((∀ early ∈ requests.inits, (t.serveAll early).keepsUp limit id = true) ∧
      ∀ request ∈ requests, request.replaces id = false)
    ⟨fun h => ⟨fun early hearly => h.1 early ((List.mem_inits early requests).2 hearly), h.2⟩,
      fun h => ⟨fun early hearly => h.keepsUp early ((List.mem_inits early requests).1 hearly),
        h.stays⟩⟩

/-- Of `wanted`, the reader gets one event after the other, and whenever it asks again, it gets the
first one that it has not got yet. -/
structure Exact (t : Keyspace) (id : ReaderId) (requests : List Request) (wanted : List Stamped) :
    Prop where
  got : t.received id requests <+: wanted
  next : ((t.serveAll requests).next id).result =
    (wanted.drop (t.received id requests).length).head?.elim .pending .item

/-- On a key, the reader gets what was published on it, and all of it when it has asked for
everything. -/
structure ExactOn (t : Keyspace) (key : EventKey) (id : ReaderId) (requests : List Request) :
    Prop where
  got : (t.received id requests).filter (fun w => w.key = key) <+:
    (published requests).filter fun w => w.key = key
  all : ((t.serveAll requests).next id).result = .pending →
    (t.received id requests).filter (fun w => w.key = key) =
      (published requests).filter fun w => w.key = key

/-- A reader of a pattern gets what was published on the keys that the pattern accepts. -/
theorem Serves.exact (h : t.Serves limit id P (fun _ => true) [] [])
    (hattends : t.Attends limit id requests) :
    t.Exact id requests ((published requests).filter P) := by
  have hserves := h.serveAll hattends.keepsUp hattends.stays
  rw [List.filter_true, List.nil_append, List.nil_append] at hserves
  obtain ⟨hopen, hpending, hafter⟩ := hserves.next (hattends.keepsUp requests List.prefix_rfl)
  refine ⟨hserves.got_initial, ?_⟩
  cases hresult : ((t.serveAll requests).next id).result with
  | ended => exact absurd hresult hopen
  | pending => rw [← hpending hresult, List.drop_length]; rfl
  | item w =>
    -- With `w`, what the reader has got is still an initial part of `wanted`.
    rw [hresult, List.filter_true] at hafter
    obtain ⟨rest, hrest⟩ := hafter.got_initial
    rw [← hrest, List.append_assoc, List.drop_left]
    rfl

theorem Serves.exactOn {key : EventKey}
    (h : t.Serves limit id (fun w => w.key = key) (fun w => w.key = key) [] [])
    (hattends : t.Attends limit id requests) : t.ExactOn key id requests := by
  have hserves := h.serveAll hattends.keepsUp hattends.stays
  have hnext := hserves.next (hattends.keepsUp requests List.prefix_rfl)
  exact ⟨hserves.got_initial, hnext.2.1⟩

/-- On a key that its pattern accepts, the reader of a pattern is like a reader of the key. -/
theorem Exact.exactOn {p : KeyPattern} {key : EventKey}
    (h : t.Exact id requests ((published requests).filter fun w => p.accepts w.key))
    (hkey : p.accepts key = true) : t.ExactOn key id requests := by
  -- The pattern lets through whatever is on the key.
  have honKey : ((published requests).filter fun w => p.accepts w.key).filter
      (fun w => w.key = key) = (published requests).filter fun w => w.key = key := by
    rw [List.filter_filter]
    refine List.filter_congr fun w _ => ?_
    by_cases hw : w.key = key
    · simp [hw, hkey]
    · simp [hw]
  constructor
  · rw [← honKey]
    exact h.got.filter _
  · intro hpending
    have hnext := h.next
    rw [hpending] at hnext
    rw [← honKey]
    cases hleft : ((published requests).filter fun w => p.accepts w.key).drop
        (t.received id requests).length with
    | nil => rw [h.got.eq_of_length_le (List.drop_eq_nil_iff.1 hleft)]
    | cons w rest =>
      rw [hleft] at hnext
      cases hnext

/-- Where two readers are registered at the same moment, each is served from there on. -/
theorem Keeps.serves_both (h : t.Keeps limit boxes) {p : KeyPattern} {keys : List EventKey}
    {key : EventKey} {opening : List Request} (hid : id ≠ id') (hkey : key ∈ keys)
    (hopening : opening = [.watch id p, .subscribe id' keys] ∨
      opening = [.subscribe id' keys, .watch id p]) :
    (t.serveAll opening).Serves limit id (fun w => p.accepts w.key) (fun _ => true) [] [] ∧
      (t.serveAll opening).Serves limit id' (fun w => w.key = key) (fun w => w.key = key)
        [] [] := by
  have hstays : ∀ p, Request.replaces id' (.watch id p) = false := fun _ => decide_eq_false hid
  have hstays' : Request.replaces id (.subscribe id' keys) = false :=
    decide_eq_false fun heq => hid heq.symm
  rcases hopening with rfl | rfl
  · obtain ⟨boxes', hwatched, -⟩ := h.serve (.watch id p)
    exact ⟨(h.serves_watch id p).serve (by nofun) hstays', hwatched.serves_subscribe id' hkey⟩
  · obtain ⟨boxes', hsubscribed, -⟩ := h.serve (.subscribe id' keys)
    exact ⟨hsubscribed.serves_watch id p, (h.serves_subscribe id' hkey).serve (by nofun) (hstays p)⟩

end Keyspace

end Observatory
