import TransactionalServer.Pair
import TransactionalServer.Proofs.Addresses
import TransactionalServer.Proofs.Docility

/-! The primary role in a pair of servers. A server that has sent a KILL counts
as many failures as a promotion takes, and nobody waits for the demotion. -/

namespace TransactionalServer.Proofs.SinglePrimary
open ServerTools LogHandler Exec Session ReplicationManager Pair

/-- The server will not take over from the other one: it connects to it, or has
failures to count, or its KILL comes first. -/
def Bound (setup : Setup) (pair : Pair) (side : Side) : Prop :=
  aimed setup pair side = true ∨ (pair.servers side).manager.tries ≤ 3 ∨ killPacket ∈ (pair.servers side).link.outbox

/-- The record of the server still holds what it was started with. -/
def Known (setup : Setup) (pair : Pair) (side : Side) : Prop :=
  getIpThis (pair.servers side).log = .ok (setup.ip side) ∧ getPortThis (pair.servers side).log = .ok (setup.port side) ∧
    getNetDir (pair.servers side).log = .ok setup.dir

/-- A server that promotes itself has no KILL on its way, and the other one is
not about to do so too. -/
def Clear (setup : Setup) (pair : Pair) (side : Side) : Prop :=
  killPacket ∉ (pair.servers side).link.outbox ∧ Bound setup pair side.other

/-- The ticks that find nobody know who they are, and promote when all is clear. -/
def Orderly (setup : Setup) (pair : Pair) : Pair.Event → Prop
  | .happens side (.tick _) _ _ =>
    isPrimary (pair.servers side) = false → aimed setup pair side = false →
      Known setup pair side ∧ (promotes setup pair side = true → Clear setup pair side)
  | .happens _ (.packet _ _ _ _ _ _) _ _ | .happens _ .sweep _ _ | .happens _ .save _ _ | .delivery _ => True

section
variable {setup : Setup} {pair next : Pair} {side : Side} {fuel : Nat} {event : System.Event} {mine theirs : Network}

instance : Decidable (Bound setup pair side) := inferInstanceAs (Decidable (_ ∨ _ ∨ _))

instance : Decidable (Known setup pair side) := inferInstanceAs (Decidable (_ ∧ _ ∧ _))

instance : Decidable (Clear setup pair side) := inferInstanceAs (Decidable (_ ∧ _))

instance : ∀ event, Decidable (Orderly setup pair event)
  | .happens _ (.tick _) _ _ => inferInstanceAs (Decidable (_ → _))
  | .happens _ (.packet _ _ _ _ _ _) _ _ | .happens _ .sweep _ _ | .happens _ .save _ _ | .delivery _ => .isTrue trivial

/-- The primary is alone in its role, primary.txt names it, and the other server
is bound to it. -/
structure Leads (setup : Setup) (pair : Pair) (side : Side) : Prop where
  alone : NotPrimary (pair.servers side.other).log
  named : pair.primaryTxt setup.dir = some (line (setup.ip side) (setup.port side))
  bound : Bound setup pair side.other

def Sole (setup : Setup) (pair : Pair) : Prop := ∀ side, IsPrimary (pair.servers side).log → Leads setup pair side

theorem isPrimary_eq_true {π : Type} {server : Server π} : isPrimary server = true ↔ IsPrimary server.log := decide_eq_true_iff

theorem isPrimary_eq_false {π : Type} {server : Server π} : isPrimary server = false ↔ NotPrimary server.log := decide_eq_false_iff_not

theorem other_ne (side : Side) : side.other ≠ side := by cases side <;> decide

theorem other_other (side : Side) : side.other.other = side := by cases side <;> rfl

theorem eq_or_other (side one : Side) : one = side ∨ one = side.other := by cases side <;> cases one <;> decide

theorem address_differs (setup : Setup) (side : Side) : ¬ (setup.ip side = setup.ip side.other ∧ setup.port side = setup.port side.other) := by
  rintro ⟨ip, port⟩
  cases side with
  | left => exact setup.distinct.elim (fun differs => differs ip) (fun differs => differs port)
  | right => exact setup.distinct.elim (fun differs => differs ip.symm) (fun differs => differs port.symm)

/-- Packets of any kind leave a server off the primary role docile. -/
theorem answer_docile (fuel : Nat) : Asked (Pair.answer fuel) fun before after => NotPrimary before.log → Docile before after := by
  refine ⟨fun _ => Docile.refl, ?_, ?_⟩
  · intro first second third one two backup
    exact (one backup).trans (two (one backup).role)
  · intro peer next io header data reply answered backup
    obtain ⟨⟨header, payload⟩, _, answered⟩ := bind_eq_ok.mp answered
    obtain ⟨handled, received, answered⟩ := bind_eq_ok.mp answered
    split at answered
    · cases answered
    · cases answered
      exact receive_docile backup received

theorem Bound.moved (bound : Bound setup pair side) (docile : Docile (pair.servers side) (next.servers side)) : Bound setup next side := by
  rcases docile.bound with same | apart
  · refine bound.imp ?_ (Or.imp ?_ (docile.sent _))
    · unfold aimed
      rw [same.ip, same.port]
      exact id
    · rw [same.tries]
      exact id
  · exact Or.inr apart

/-- Where both servers are docile off the primary role, a sole primary stays the only one. -/
theorem Sole.moved (sole : Sole setup pair) (file : next.primaryTxt = pair.primaryTxt)
    (docile : ∀ side, NotPrimary (pair.servers side).log → Docile (pair.servers side) (next.servers side)) : Sole setup next := by
  intro side primary
  have before : IsPrimary (pair.servers side).log := by
    by_contra backup
    exact (docile side backup).role primary
  have leads := sole side before
  have moved := docile side.other leads.alone
  exact ⟨moved.role, file ▸ leads.named, leads.bound.moved moved⟩

theorem reaches_facing (backup : isPrimary (pair.servers side) = false) :
    reaches (facing setup pair side mine theirs) = aimed setup pair side := by
  unfold reaches facing attempts
  rw [backup]
  cases aimed setup pair side with
  | true => rfl
  | false => rfl

/-- What happens to one server leaves both docile, unless a tick finds nobody. -/
theorem happens_docile {final : Server Backup}
    (connects : ∀ tick, event = .tick tick → isPrimary (pair.servers side) = false → aimed setup pair side = true)
    (stepped : System.step (Pair.answer fuel) fuel (facing setup pair side mine theirs) event = .ok final) (one : Side)
    (backup : NotPrimary (pair.servers one).log) :
    Docile (pair.servers one) (if one = side then apart final else final.link.peer) := by
  rcases eq_or_other side one with rfl | rfl
  · rw [if_pos rfl]
    have up (tick : Tick) (same : event = .tick tick) : reaches (facing setup pair one mine theirs) = true := by
      rw [reaches_facing (isPrimary_eq_false.mpr backup)]
      exact connects tick same (isPrimary_eq_false.mpr backup)
    have docile : Docile (facing setup pair one mine theirs) final := step_docile backup up stepped
    exact docile.seen ⟨rfl, rfl⟩ ⟨rfl, rfl, rfl⟩
  · rw [if_neg (other_ne side)]
    have docile := (answer_docile fuel).step stepped backup
    exact docile.seen ⟨rfl, rfl⟩ ⟨rfl, rfl, rfl⟩

/-- primary.txt as the search of a server reads it. -/
theorem names_line {tick : Tick} {one : Side} (read : tick.primaryTxt = some (line (setup.ip one) (setup.port one))) {ip port : Text}
    (names : Names tick ip port) : ip = setup.ip one ∧ port = setup.port one := by
  obtain ⟨text, found, first, third⟩ := names
  obtain rfl := Option.some.inj (read.symm.trans found)
  have clean := setup.clean one
  rw [Addresses.line_fields clean.1 clean.2] at first third
  exact ⟨(Option.some.inj first).symm, (Option.some.inj third).symm⟩

/-- A search that does not promote aims at the primary. -/
theorem Sole.aims {tick : Tick} {final : Server Backup} (sole : Sole setup pair) (known : Known setup pair side)
    (backup : NotPrimary (pair.servers side).log) (few : (pair.servers side).manager.tries ≤ 3)
    (read : tick.primaryTxt = pair.primaryTxt setup.dir) (searches : Searches tick (facing setup pair side mine theirs) final)
    (peer : final.link.peer = (facing setup pair side mine theirs).link.peer) (file : next.primaryTxt = pair.primaryTxt)
    (servers : next.servers = fun one => if one = side then apart final else final.link.peer) : Sole setup next := by
  have same : final.log = (pair.servers side).log := by
    rcases searches.role with ⟨_, same, _⟩ | ⟨many, _⟩
    · exact same
    · exact absurd few (Int.not_le.mpr many)
  have mine : next.servers side = apart final := by rw [servers]; exact if_pos rfl
  have theirs : next.servers side.other = final.link.peer := by rw [servers]; exact if_neg (other_ne side)
  intro one primary
  rcases eq_or_other side one with rfl | rfl
  · rw [mine] at primary
    exact absurd (same ▸ primary) backup
  · have before : IsPrimary (pair.servers side.other).log := by
      rw [theirs, peer] at primary
      exact primary
    have leads := sole _ before
    refine ⟨?_, file ▸ leads.named, Or.inl ?_⟩
    · rw [other_other, mine]
      exact same ▸ backup
    · obtain ⟨ip, port, names, target⟩ := searches.target
      obtain ⟨rfl, rfl⟩ := names_line (read.trans leads.named) names
      rw [other_other]
      unfold aimed
      rw [mine]
      rcases target with ⟨ownIp, ownPort, _⟩ | ⟨_, aimedIp, aimedPort⟩
      · rw [same, known.1, Except.ok.injEq] at ownIp
        rw [same, known.2.1, Except.ok.injEq] at ownPort
        exact absurd ⟨ownIp, ownPort⟩ (address_differs setup side)
      · simp only [apart, aimedIp, aimedPort, beq_self_eq_true, Bool.and_self]

/-- A search that promotes takes over from nobody, and nobody is about to take over. -/
theorem Sole.takes {final : Server Backup} (sole : Sole setup pair) (clear : Clear setup pair side) (away : aimed setup pair side = false) (many : 3 < (pair.servers side).manager.tries)
    (peer : final.link.peer = (facing setup pair side mine theirs).link.peer)
    (file : next.primaryTxt setup.dir = some (line (setup.ip side) (setup.port side)))
    (servers : next.servers = fun one => if one = side then apart final else final.link.peer) : Sole setup next := by
  have theirs : next.servers side.other = final.link.peer := by rw [servers]; exact if_neg (other_ne side)
  have nobody : NotPrimary (pair.servers side.other).log := by
    intro primary
    have leads := sole _ primary
    rcases other_other side ▸ leads.bound with aims | few | killed
    · rw [away] at aims
      cases aims
    · exact absurd few (Int.not_le.mpr many)
    · exact clear.1 killed
  intro one primary
  rcases eq_or_other side one with rfl | rfl
  · refine ⟨?_, file, ?_⟩
    · rw [theirs, peer]
      exact nobody
    · have bound := clear.2
      unfold Bound aimed at bound ⊢
      rw [theirs, peer]
      exact bound
  · rw [theirs, peer] at primary
    exact absurd primary nobody

/-- A KILL that arrives demotes whom it was sent to. -/
theorem killed_notPrimary {server : Server Unit} {handled : Handled Unit}
    (received : receive Backup.noPeer fuel {} server true (killPacket.takeWhile (· ≠ '\r')) none = .ok handled) : NotPrimary handled.server.log := by
  have method : parse (killPacket.takeWhile (· ≠ '\r')) = 9 := by decide
  have unneeded : needsData (killPacket.takeWhile (· ≠ '\r')) = false := by decide
  generalize killPacket.takeWhile (· ≠ '\r') = header at received method unneeded
  simp only [receive, unneeded, Bool.false_eq_true, if_false] at received
  unfold dispatch at received
  obtain ⟨out, executed, received⟩ := bind_eq_ok.mp received
  rw [method] at executed
  simp only [executeCommand, authorized_command, ok_bind, Bool.false_eq_true, if_false] at executed
  obtain ⟨switched, switches, same⟩ := bind_eq_ok.mp executed
  cases same
  simp only [if_true] at received
  cases received
  exact switchToBackup_notPrimary switches

/-- A packet that arrives leaves the pair sole: its receiver is docile off the
primary role, and a KILL that is no longer on its way has been handled. -/
theorem delivery_sole {sender : Side} (sole : Sole setup pair) (stepped : Pair.step setup fuel pair (.delivery sender) = .ok next) :
    Sole setup next := by
  simp only [Pair.step] at stepped
  split at stepped
  · cases stepped
    exact sole
  next packet outbox sent =>
  obtain ⟨handled, received, same⟩ := bind_eq_ok.mp stepped
  have mine : next.servers sender = { pair.servers sender with link := { (pair.servers sender).link with outbox } } := by
    rw [← Except.ok.inj same]
    exact if_pos rfl
  have theirs : next.servers sender.other = handled.server := by
    rw [← Except.ok.inj same]
    exact if_neg (other_ne sender)
  have file : next.primaryTxt = pair.primaryTxt := by rw [← Except.ok.inj same]
  intro one primary
  rcases eq_or_other sender one with rfl | rfl
  · rw [mine] at primary
    have leads := sole one primary
    have docile := receive_docile leads.alone received
    rw [← theirs] at docile
    exact ⟨docile.role, file ▸ leads.named, leads.bound.moved docile⟩
  · -- the receiver is still the primary, so that the packet was no KILL
    rw [theirs] at primary
    have before : IsPrimary (pair.servers sender.other).log := by
      by_contra backup
      exact (receive_docile backup received).role primary
    obtain ⟨alone, named, bound⟩ := sole _ before
    rw [other_other] at alone bound
    have other : packet ≠ killPacket := by
      rintro rfl
      exact killed_notPrimary received primary
    refine ⟨?_, file ▸ named, ?_⟩
    · rw [other_other, mine]
      exact alone
    · rw [other_other]
      unfold Bound aimed at bound ⊢
      rw [mine]
      refine bound.imp id (Or.imp id ?_)
      rw [sent]
      intro member
      exact (List.mem_cons.mp member).resolve_left (Ne.symm other)

/-- A tick that does not have to search for the primary writes nothing. -/
theorem promotes_eq_false (found : isPrimary (pair.servers side) = true ∨ aimed setup pair side = true) : promotes setup pair side = false := by
  unfold promotes
  rcases found with primary | aims
  · rw [primary]
    rfl
  · rw [aims, Bool.not_true, Bool.and_false, Bool.false_and]

/-- The tick of a server that finds nobody. -/
theorem searches_sole {tick : Tick} (sole : Sole setup pair) (known : Known setup pair side)
    (clear : promotes setup pair side = true → Clear setup pair side) (backup : isPrimary (pair.servers side) = false)
    (away : aimed setup pair side = false) (stepped : Pair.step setup fuel pair (.happens side (.tick tick) mine theirs) = .ok next) :
    Sole setup next := by
  obtain ⟨shared, published, stepped⟩ := bind_eq_ok.mp stepped
  obtain ⟨read, reads, stepped⟩ := bind_eq_ok.mp stepped
  obtain ⟨final, happens, same⟩ := bind_eq_ok.mp stepped
  have servers : next.servers = fun one => if one = side then apart final else final.link.peer := by rw [← Except.ok.inj same]
  have file : next.primaryTxt = shared.primaryTxt := by rw [← Except.ok.inj same]
  have off : NotPrimary (facing setup pair side mine theirs).log := isPrimary_eq_false.mp backup
  have down : reaches (facing setup pair side mine theirs) = false := (reaches_facing backup).trans away
  simp only [publish] at published
  split at published
  next taking =>
    have many : 3 < (pair.servers side).manager.tries := by
      simp only [promotes, backup, away, Bool.not_false, Bool.true_and, decide_eq_true_eq] at taking
      exact taking
    rw [known.1, known.2.1, known.2.2] at published
    cases published
    obtain ⟨dir, _, same⟩ := bind_eq_ok.mp reads
    cases same
    obtain ⟨_, peer⟩ := step_searches off down happens
    have named : next.primaryTxt setup.dir = some (line (setup.ip side) (setup.port side)) := by
      rw [file]
      exact if_pos rfl
    exact sole.takes (clear taking) away many peer named servers
  next waiting =>
    have few : (pair.servers side).manager.tries ≤ 3 := by
      simp only [promotes, backup, away, Bool.not_false, Bool.true_and, decide_eq_true_eq] at waiting
      exact Int.not_lt.mp waiting
    cases published
    obtain ⟨dir, own, same⟩ := bind_eq_ok.mp reads
    cases same
    obtain rfl := Except.ok.inj (own.symm.trans known.2.2)
    obtain ⟨searches, peer⟩ := step_searches off down happens
    exact sole.aims known (isPrimary_eq_false.mp backup) few rfl searches peer file servers

/-- Any other event leaves both servers docile. -/
theorem happens_sole (sole : Sole setup pair)
    (connects : ∀ tick, event = .tick tick → isPrimary (pair.servers side) = true ∨ aimed setup pair side = true)
    (stepped : Pair.step setup fuel pair (.happens side event mine theirs) = .ok next) : Sole setup next := by
  obtain ⟨shared, published, stepped⟩ := bind_eq_ok.mp stepped
  obtain ⟨read, reads, stepped⟩ := bind_eq_ok.mp stepped
  obtain ⟨final, happens, same⟩ := bind_eq_ok.mp stepped
  have unwritten : shared = pair := by
    cases event with
    | packet | sweep | save => exact (Except.ok.inj published).symm
    | tick tick =>
      simp only [publish, promotes_eq_false (connects tick rfl), Bool.false_eq_true, if_false] at published
      exact (Except.ok.inj published).symm
  subst unwritten
  cases same
  refine sole.moved rfl (happens_docile ?_ happens)
  intro tick ticks backup
  subst ticks
  cases event with
  | packet | sweep | save => cases reads
  | tick tick =>
    refine (connects tick rfl).resolve_left ?_
    rw [backup]
    decide

/-- Every orderly step leaves at most one primary. -/
theorem step_sole {event : Pair.Event} (sole : Sole setup pair) (orderly : Orderly setup pair event)
    (stepped : Pair.step setup fuel pair event = .ok next) : Sole setup next := by
  cases event with
  | delivery sender => exact delivery_sole sole stepped
  | happens side event mine theirs =>
    cases event with
    | packet | sweep | save => exact happens_sole sole (fun _ same => by cases same) stepped
    | tick tick =>
      by_cases found : isPrimary (pair.servers side) = true ∨ aimed setup pair side = true
      · exact happens_sole sole (fun _ _ => found) stepped
      · rw [not_or, Bool.not_eq_true, Bool.not_eq_true] at found
        obtain ⟨backup, away⟩ := found
        obtain ⟨known, clear⟩ := orderly backup away
        exact searches_sole sole known clear backup away stepped

theorem start_sole (setup : Setup) (main : Side) (loaded : Side → Log) (files : Text → Option Text) :
    Sole setup (Pair.start setup main loaded files) := by
  intro side primary
  have role : (if (decide (side = main)) = true then ("primary" : Text) else "backup") = "primary" := by
    have read : getServerStatus ((Pair.start setup main loaded files).servers side).log = .ok _ := serverData_role _ _ _ _ _
    exact Except.ok.inj (read.symm.trans primary)
  have leader : side = main := by
    by_contra other
    rw [if_neg (by simpa using other)] at role
    exact absurd role (by decide)
  subst leader
  refine ⟨?_, if_pos rfl, Or.inr (Or.inl ?_)⟩
  · intro primary
    have read : getServerStatus ((Pair.start setup side loaded files).servers side.other).log = .ok _ := serverData_role _ _ _ _ _
    rw [primary, if_neg (by simpa using other_ne side), Except.ok.injEq] at read
    exact absurd read (by decide)
  · show (0 : Int) ≤ 3
    decide

/-- In every run in which the ticks that find nobody know their own address,
and promote only while no KILL of theirs is on its way and the other server is
bound, the two servers are never both the primary. -/
theorem at_most_one_primary_in_orderly_runs {main : Side} {loaded : Side → Log} {files : Text → Option Text} {events : List Pair.Event}
    (along : Along (Pair.step setup fuel) (Orderly setup) (Pair.start setup main loaded files) events)
    (ran : events.foldlM (Pair.step setup fuel) (Pair.start setup main loaded files) = .ok next) :
    ¬ (IsPrimary (next.servers .left).log ∧ IsPrimary (next.servers .right).log) := by
  have sole := run_preserves (Sole setup) (fun _ _ _ sole orderly stepped => step_sole sole orderly stepped) along
    (start_sole setup main loaded files) ran
  rintro ⟨left, right⟩
  exact (sole .left left).alone right

end

/-- Two servers on one host. -/
private def twoPorts : Setup where
  ip := fun _ => "ip"
  port := fun side => match side with
    | .left => "80"
    | .right => "81"
  dir := "dir"
  distinct := by decide
  clean := by
    intro side
    cases side <;> decide

/-- The backup holds a commit that the primary has lost. -/
private def unlike : Pair :=
  Pair.start twoPorts .left (fun side => match side with
    | .left => ∅
    | .right => (∅ : Log).insert 5
        ((∅ : Record).insert (-1) ("COMMITTED", "1") |>.insert 0 ("NEW_TXN", "aa") |>.insert 1 ("WRITE 5 1 3", "xx"))) fun _ => none

private def tick (side : Side) : Pair.Event := .happens side (.tick {}) {} {}

/-- The backup finds the primary, kills it, and takes over when it has been demoted. -/
private def handover : List Pair.Event := [tick .right, tick .right, .delivery .right, tick .right, tick .left]

/-- The next tick of the backup comes before the KILL is handled. -/
private def hurry : List Pair.Event := [tick .right, tick .right, tick .right]

private def roles (pair : Pair) : Bool × Bool := (isPrimary (pair.servers .left), isPrimary (pair.servers .right))

theorem handled_kill_leaves_one_primary : ∃ final, handover.foldlM (Pair.step twoPorts 5) unlike = .ok final ∧
    IsPrimary (final.servers .right).log ∧ ¬ (IsPrimary (final.servers .left).log ∧ IsPrimary (final.servers .right).log) := by
  obtain ⟨final, ran⟩ := returned_of_isOk (show (handover.foldlM (Pair.step twoPorts 5) unlike).isOk by decide +kernel)
  have seen : (handover.foldlM (Pair.step twoPorts 5) unlike).map roles = .ok (false, true) := by decide +kernel
  rw [ran] at seen
  have primary := isPrimary_eq_true.mp (congrArg Prod.snd (Except.ok.inj seen))
  have along : Along (Pair.step twoPorts 5) (Orderly twoPorts) unlike handover := by decide +kernel
  exact ⟨final, ran, primary, at_most_one_primary_in_orderly_runs along ran⟩

/-- The KILL is still on its way when its sender takes over. -/
theorem unhandled_kill_leaves_two_primaries : ∃ final, hurry.foldlM (Pair.step twoPorts 5) unlike = .ok final ∧
    IsPrimary (final.servers .left).log ∧ IsPrimary (final.servers .right).log := by
  obtain ⟨final, ran⟩ := returned_of_isOk (show (hurry.foldlM (Pair.step twoPorts 5) unlike).isOk by decide +kernel)
  have seen : (hurry.foldlM (Pair.step twoPorts 5) unlike).map roles = .ok (true, true) := by decide +kernel
  rw [ran] at seen
  exact ⟨final, ran, isPrimary_eq_true.mp (congrArg Prod.fst (Except.ok.inj seen)), isPrimary_eq_true.mp (congrArg Prod.snd (Except.ok.inj seen))⟩

end TransactionalServer.Proofs.SinglePrimary
