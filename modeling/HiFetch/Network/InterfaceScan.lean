import HiFetch.Library.Inet
import HiFetch.Library.Slots
import HiFetch.Network.Wireless

/-!
# Network interfaces

`scan_network_interfaces` goes over the list of `getifaddrs`, which has a node for every address of
an interface.  It fills the next free slot field by field with what a node and the files of its
interface provide, and keeps the slot if the interface is up and its name is not `lo`.  So an
interface with several nodes is listed several times, an alias of the loopback interface is listed,
and what a node that is not kept leaves in the slot is still there when the next node is filled in.

The output of `iwconfig` for a wireless interface may be at an address that does not fit into an
`int`.  The scan then ends in an access to some other address.
-/

namespace HiFetch.Network

open CString Inet Slots Utils

def maxInterfaces : ℕ := 32

/-- An address of the family `AF_INET`, or of another one. -/
inductive SockAddr where
  | inet (address : UInt32)
  | other
deriving DecidableEq

/-- A node of the list. -/
structure IfAddr where
  name : CString
  addr : Option SockAddr
  netmask : Option UInt32
  broadaddr : Option UInt32
  isUp : Bool
  /-- `IFF_LOOPBACK`, which the scan does not look at. -/
  isLoopback : Bool
  length_name_le : name.length ≤ 15
deriving DecidableEq

/-- The fields that are assigned. -/
structure InterfaceInfo where
  interfaces : List NetworkInterface
  interfaceCount : ℕ

/-- The files under `/sys`, and what `execute_cmd` returns.  The addresses and the drivers fit into
their arrays. -/
structure System extends Sysfs where
  run : CString → Option CmdOutput
  length_address_le : ∀ name, ∀ text ∈ (file (netPath name (ofText "/address"))).string,
    text.length ≤ 17
  length_driver_le : ∀ path, ∀ text ∈ (readlink path).bind driverName, text.length ≤ 31

/-- The addresses of a node. -/
def NetworkInterface.storeAddresses (iface : NetworkInterface) (ifa : IfAddr) : NetworkInterface :=
  match ifa.addr with
  | some (.inet address) =>
      { iface with
        ipAddress := inetNtop address
        netmask := match ifa.netmask with
          | some netmask => inetNtop netmask
          | none => iface.netmask
        broadcast := match ifa.broadaddr with
          | some broadaddr => inetNtop broadaddr
          | none => iface.broadcast }
  | _ => iface

/-- A slot that a node is filled in, and the static buffer. -/
def fillInterface (system : System) (iface : NetworkInterface) (buffer : List UInt8)
    (ifa : IfAddr) : NetworkInterface × List UInt8 :=
  let iface := { iface with name := ifa.name }
  let iface := { iface.storeAddresses ifa with isUp := ifa.isUp }
  let (mac, buffer) := readSysfsString buffer (system.file (netPath ifa.name (ofText "/address")))
  let iface := { iface with macAddress := mac.getD iface.macAddress }
  let (mtu, buffer) := readSysfsInt buffer (system.file (netPath ifa.name (ofText "/mtu")))
  let (speed, buffer) := readSysfsInt buffer (system.file (netPath ifa.name (ofText "/speed")))
  let iface := { iface with mtu := mtu, speedMbps := if 0 < speed then speed else 0 }
  let link := system.readlink (netPath ifa.name (ofText "/device/driver"))
  let iface := { iface with driver := (link.bind driverName).getD iface.driver }
  iface.getNetworkStatistics system.file buffer

/-- The body of the loop, up to the decision whether the slot is kept. -/
def scanInterface (system : System) (iface : NetworkInterface) (buffer : List UInt8)
    (ifa : IfAddr) : Option NetworkInterface × List UInt8 :=
  let (iface, buffer) := fillInterface system iface buffer ifa
  let isWireless := system.stat (netPath iface.name (ofText "/wireless"))
  (iface.getWirelessInfo isWireless system.run, buffer)

def scanLoop (system : System) : InterfaceInfo → List UInt8 → List IfAddr → Option InterfaceInfo
  | info, _, [] => some info
  | info, buffer, ifa :: rest =>
      if info.interfaceCount < maxInterfaces then
        if ifa.addr = none then scanLoop system info buffer rest
        else
          let slot := info.interfaces.getD info.interfaceCount (.named empty)
          match scanInterface system slot buffer ifa with
          | (none, _) => none
          | (some iface, buffer) =>
              let interfaces := info.interfaces.set info.interfaceCount iface
              if strcmp ifa.name (ofText "lo") ≠ 0 ∧ iface.isUp then
                scanLoop system ⟨interfaces, info.interfaceCount + 1⟩ buffer rest
              else scanLoop system ⟨interfaces, info.interfaceCount⟩ buffer rest
      else some info

def InterfaceInfo.entries (info : InterfaceInfo) : List NetworkInterface :=
  info.interfaces.take info.interfaceCount

/-! ## The law -/

/-- The fields that an interface gets from its nodes, its files and its link. -/
inductive InterfaceField where
  | ipAddress | netmask | broadcast | macAddress | driver
deriving DecidableEq

def NetworkInterface.field (iface : NetworkInterface) : InterfaceField → CString
  | .ipAddress => iface.ipAddress
  | .netmask => iface.netmask
  | .broadcast => iface.broadcast
  | .macAddress => iface.macAddress
  | .driver => iface.driver

/-- What a node and the files of its interface provide for a field. -/
def System.provided (system : System) (ifa : IfAddr) (field : InterfaceField) : Option CString :=
  match field, ifa.addr with
  | .ipAddress, some (.inet address) => some (inetNtop address)
  | .netmask, some (.inet _) => ifa.netmask.map inetNtop
  | .broadcast, some (.inet _) => ifa.broadaddr.map inetNtop
  | .macAddress, _ => (system.file (netPath ifa.name (ofText "/address"))).string
  | .driver, _ => (system.readlink (netPath ifa.name (ofText "/device/driver"))).bind driverName
  | _, _ => none

/-- The node is kept when its turn comes. -/
def IfAddr.Kept (ifa : IfAddr) : Prop := ifa.name ≠ ofText "lo" ∧ ifa.isUp

instance (ifa : IfAddr) : Decidable ifa.Kept := inferInstanceAs (Decidable (_ ∧ _))

/-- The nodes with an address that are kept, each with the skipped ones in front of it. -/
def turns : List IfAddr → List IfAddr → List (List IfAddr × IfAddr)
  | _, [] => []
  | skipped, ifa :: rest =>
      if ifa.addr = none then turns skipped rest
      else if ifa.Kept then (skipped, ifa) :: turns [] rest
      else turns (skipped ++ [ifa]) rest

/-- What the nodes leave in a field of a zeroed slot. -/
def System.leftOver (system : System) (nodes : List IfAddr) (field : InterfaceField) : CString :=
  nodes.foldl (fun text ifa ↦ (system.provided ifa field).getD text) empty

/-- Two slots agree in what the scan looks at. -/
def NetworkInterface.Agrees (first second : NetworkInterface) : Prop :=
  first.name = second.name ∧ first.isUp = second.isUp ∧ first.field = second.field

theorem NetworkInterface.Agrees.trans {first second third : NetworkInterface}
    (h : first.Agrees second) (hnext : second.Agrees third) : first.Agrees third :=
  ⟨h.1.trans hnext.1, h.2.1.trans hnext.2.1, h.2.2.trans hnext.2.2⟩

/-- The slots behind those that are kept: the first one holds what the skipped nodes have left, and
the others are as they were. -/
def FreeSlots (system : System) (skipped : List IfAddr) : List NetworkInterface → Prop
  | [] => True
  | slot :: rest =>
      slot.field = system.leftOver skipped ∧ ∀ other ∈ rest, other = .named empty

/-- The name and the fields of an entry. -/
def NetworkInterface.summary (iface : NetworkInterface) : CString × (InterfaceField → CString) :=
  (iface.name, iface.field)

/-- The name and the fields that a turn leads to. -/
def System.expected (system : System) (turn : List IfAddr × IfAddr) :
    CString × (InterfaceField → CString) :=
  (turn.2.name, system.leftOver (turn.1 ++ [turn.2]))

theorem leftOver_nil (system : System) :
    system.leftOver [] = (NetworkInterface.named empty).field := by
  funext field
  cases field <;> rfl

/-- Behind a slot that is kept, the next one is as it was. -/
theorem FreeSlots.behind {system : System} {skipped : List IfAddr} {slot : NetworkInterface}
    {others : List NetworkInterface} (h : FreeSlots system skipped (slot :: others)) :
    FreeSlots system [] others := by
  cases others with
  | nil => trivial
  | cons other others =>
    obtain rfl := h.2 other List.mem_cons_self
    exact ⟨(leftOver_nil system).symm, fun other hmem ↦ h.2 other (List.mem_cons_of_mem _ hmem)⟩

end HiFetch.Network
