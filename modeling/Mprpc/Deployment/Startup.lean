import Mprpc.Config.Writing
import Mprpc.Deployment.Discovery

/-!
# From the command line to the address of a provider

`MprpcApplication::Init` takes the name of the configuration file from the options and
loads it; `RpcProvider::Run` takes its address from the configuration and registers
it, and `ZkClient::Start` the address of ZooKeeper.  What a client reads back from the
name of the provider's node is the address in the file.
-/

namespace Mprpc

open Mprpc.Client
open Mprpc.Config
open Mprpc.Rpc

namespace MprpcApplication

/-- What `ShowArgsHelp` prints. -/
def showArgsHelp : Bytes :=
  Bytes.ofString "format: command -i <configfile>\n"

/-- The loop over `getopt` with the options `i:`.  The last `-i` counts, words that are
no options are passed over, and `--` ends the options.  An unknown option and a last
`-i` without its argument have no result. -/
def options (configFile : Bytes) : List Bytes → Option Bytes
  | [] => some configFile
  | arg :: args =>
      match arg with
      | [45, 45] => some configFile
      | [45, 105] =>
          match args with
          | [] => none
          | optarg :: args => options optarg args
      | 45 :: 105 :: optarg => options optarg args
      | 45 :: _ :: _ => none
      | _ => options configFile args

/-- `MprpcApplication::Init`. -/
def init (fopen : Bytes → Option FileStream) (argv : List Bytes) (passes : Nat) :
    Option MprpcConfig.LoadEnd :=
  if argv.length < 2 then some (.exits showArgsHelp 1)
  else
    match options [] argv.tail with
    | none => some (.exits showArgsHelp 1)
    | some configFile => (⟨[]⟩ : MprpcConfig).loadConfigFile fopen configFile passes

end MprpcApplication

namespace Deployment

/-- The address that `RpcProvider::Run` takes from the configuration. -/
def runAddress (config : MprpcConfig) : Bytes × UInt16 :=
  (config.load (Bytes.ofString "rpcserver_ip"),
    UInt16.ofInt (Bytes.atoi (Bytes.cString (config.load (Bytes.ofString "rpcserver_port")))))

/-- The name of the nodes that `Run` registers. -/
def registeredName (config : MprpcConfig) : Bytes :=
  hostName (Bytes.cString (runAddress config).1) (runAddress config).2

/-- `connstr` of `ZkClient::Start`. -/
def connstr (config : MprpcConfig) : Bytes :=
  config.load (Bytes.ofString "zookeeperip") ++ Bytes.ofString ":" ++
    config.load (Bytes.ofString "zookeeperport")

variable {text : Bytes} {fopen : Bytes → Option FileStream} {configFile prog : Bytes}
  {args : List Bytes}

/-- `Init` loads the file of the last `-i`. -/
theorem init_loads (given : args ≠ []) (named : MprpcApplication.options [] args = some configFile)
    (passes : Nat) :
    MprpcApplication.init fopen (prog :: args) passes =
      (⟨[]⟩ : MprpcConfig).loadConfigFile fopen configFile passes := by
  have enough : ¬ (prog :: args).length < 2 := by
    have present := List.length_pos_iff.mpr given
    rw [List.length_cons]
    omega
  rw [MprpcApplication.init, if_neg enough, List.tail_cons, named]

/-- The port that a decimal number in the file names. -/
theorem ofInt_atoi_ofNat (port : UInt16) :
    UInt16.ofInt (Bytes.atoi (Bytes.cString (Bytes.ofNat port.toNat))) = port := by
  have bound := port.toNat_lt
  have noTerminator : 0 ∉ Bytes.ofNat port.toNat := fun member =>
    absurd (Bytes.isDigit_of_mem_ofNat member).1 (by decide)
  rw [Bytes.cString_eq_self noTerminator, Bytes.atoi_ofNat (Nat.lt_trans bound (by decide))]
  apply UInt16.toNat_inj.mp
  rw [UInt16.ofInt, UInt16.toNat_ofNat']
  omega

/-- A provider that is started with a file that sets its address and that of ZooKeeper
connects to this ZooKeeper, and a client that reads the name of its node connects to
this address. -/
theorem found_of_started (given : args ≠ [])
    (named : MprpcApplication.options [] args = some configFile)
    (opened : fopen configFile = some (.ofText text)) (noTerminator : 0 ∉ text)
    (fits : FitsWindow text) (ip : IpText) (port : UInt16) {zkIp zkPort : Bytes}
    (ipSet : firstSetting (lines text) (Bytes.ofString "rpcserver_ip") = some ip.text)
    (portSet : firstSetting (lines text) (Bytes.ofString "rpcserver_port") =
      some (Bytes.ofNat port.toNat))
    (zkIpSet : firstSetting (lines text) (Bytes.ofString "zookeeperip") = some zkIp)
    (zkPortSet : firstSetting (lines text) (Bytes.ofString "zookeeperport") = some zkPort) :
    ∃ passes config, MprpcApplication.init fopen (prog :: args) passes =
        some (.returns config) ∧
      connstr config = zkIp ++ Bytes.ofString ":" ++ zkPort ∧
      ∀ path, parseAddress path (registeredName config) = .ok ⟨ip.text, port⟩ := by
  have follows := (followsGrammar_iff noTerminator).mpr fits
  refine ⟨_, _, (init_loads given named _).trans (loadConfigFile_ofText opened), ?_,
    fun path => ?_⟩
  · rw [connstr, follows.value _ _ zkIpSet, follows.value _ _ zkPortSet]
  · rw [registeredName, runAddress, follows.value _ _ ipSet, follows.value _ _ portSet,
      ofInt_atoi_ofNat, Bytes.cString_eq_self (ip.notMem (by decide))]
    exact ip.parseAddress_hostName path port

/-- A key that no line sets is loaded as the empty string. -/
theorem load_of_unset {config : MprpcConfig} (follows : FollowsGrammar text config) {key : Bytes}
    (unset : firstSetting (lines text) key = none) : config.load key = [] := by
  rw [MprpcConfig.load]
  cases held : config.configMap.lookup key with
  | none => rfl
  | some value =>
      have set := follows.noOther key (by rw [held]; rfl)
      rw [unset] at set
      cases set

/-- A file without the two keys, such as `test.conf` with its `rpcserverip` and
`rpcserverport`, makes the provider register a node that names no address. -/
theorem registeredName_of_unset {config : MprpcConfig} (follows : FollowsGrammar text config)
    (noIp : firstSetting (lines text) (Bytes.ofString "rpcserver_ip") = none)
    (noPort : firstSetting (lines text) (Bytes.ofString "rpcserver_port") = none) :
    registeredName config = Bytes.ofString ":0" ∧
      ∀ path, parseAddress path (registeredName config) = .ok ⟨[], 0⟩ := by
  have name : registeredName config = Bytes.ofString ":0" := by
    rw [registeredName, runAddress, load_of_unset follows noIp, load_of_unset follows noPort]
    decide +kernel
  rw [name]
  exact ⟨rfl, fun path => by rfl⟩

/-- The settings that `start_cluster.sh` writes for a provider. -/
def clusterSettings (port : Nat) : List (Bytes × Bytes) :=
  [(Bytes.ofString "rpcserver_ip", Bytes.ofString "127.0.0.1"),
    (Bytes.ofString "rpcserver_port", Bytes.ofNat port),
    (Bytes.ofString "zookeeperip", Bytes.ofString "127.0.0.1"),
    (Bytes.ofString "zookeeperport", Bytes.ofString "2181")]

/-- A provider of the cluster. -/
theorem found_of_started_cluster :
    ∃ passes config, MprpcApplication.init
        (fun _ => some (.ofText (writeSettings (clusterSettings 8029))))
        [Bytes.ofString "provider", Bytes.ofString "-i", Bytes.ofString "server_8029.conf"]
        passes = some (.returns config) ∧
      connstr config =
        Bytes.ofString "127.0.0.1" ++ Bytes.ofString ":" ++ Bytes.ofString "2181" ∧
      ∀ path, parseAddress path (registeredName config) =
        .ok ⟨localHost.text, 8029⟩ :=
  found_of_started (by decide) rfl rfl (by decide +kernel)
    (fitsWindow_writeSettings (by decide +kernel)) localHost 8029 (by decide +kernel)
    (by decide +kernel) (by decide +kernel) (by decide +kernel)

end Deployment

end Mprpc
