import Chip8.FileTree

/-!
# The standard tree

The directories, links, devices and files that every system has, with a working directory of its own
for the program. That directory lies below the one for temporary files, under a name that is not
known, and so does the program's entry below the one for processes.

What the files of the system hold is not known either; they read as empty, as the null device does.
None of them is a program.
-/

namespace Chip8.FileTree

/-- A name that is not known. No path spells it, since its parts are what lies between slashes. -/
def unnamed : String := "/"

/-- The working directory. -/
def workingLocation : Location := [unnamed, "tmp"]

/-- The file of the program that is running. -/
def programLocation : Location := [unnamed]

/-- The program's entry among the processes. -/
def processLocation : Location := [unnamed, "proc"]

/-- The entry of the program's only thread. -/
def threadLocation : Location := unnamed :: "task" :: processLocation

/-- The same node under several names of one directory; the names stand apart by blanks. -/
def under (location : Location) (node : Node) (names : String) : List (Location × Node) :=
  (names.splitOn " ").map fun name => (name :: location, node)

/-! ## Directories and files at rest -/

/-- The directories that every system has. -/
def standardDirectories : List (Location × Node) :=
  under [] .directory "boot dev etc home media mnt opt proc root run srv sys tmp usr var" ++
  under ["dev"] .directory "mqueue pts shm" ++
  under ["etc"] .directory
    ("alternatives apt cron.d cron.daily default dpkg init.d kernel ld.so.conf.d logrotate.d opt " ++
      "pam.d profile.d rc0.d rc1.d rc2.d rc3.d rc4.d rc5.d rc6.d rcS.d security selinux skel " ++
      "systemd terminfo update-motd.d") ++
  under ["run"] .directory "lock" ++
  under ["usr"] .directory "bin games include lib lib64 local sbin share src" ++
  under ["lib", "usr"] .directory "apt dpkg init locale lsb mime systemd tmpfiles.d udev" ++
  under ["local", "usr"] .directory "bin etc games include lib sbin share src" ++
  under ["share", "local", "usr"] .directory "man" ++
  under ["share", "usr"] .directory
    ("base-files base-passwd bash-completion bug common-licenses debconf debianutils dict doc " ++
      "doc-base dpkg info keyrings libc-bin lintian locale man menu misc pam pam-configs perl5 " ++
      "pixmaps tabset terminfo util-linux zoneinfo") ++
  under ["var"] .directory "backups cache lib local log mail opt spool tmp" ++
  under ["cache", "var"] .directory "apt debconf ldconfig" ++
  under ["lib", "var"] .directory "apt dpkg misc pam systemd"

/-- The links between them, each with the place it stands for. -/
def standardLinks : List (Location × Node) :=
  [(["bin"], .link ["usr", "bin"]),
   (["lib"], .link ["usr", "lib"]),
   (["lib64"], .link ["usr", "lib64"]),
   (["sbin"], .link ["usr", "sbin"]),
   (["os-release", "etc"], .link ["usr", "lib", "os-release"]),
   (["man", "local", "usr"], .link ["usr", "local", "share", "man"]),
   (["lock", "var"], .link ["run", "lock"]),
   (["run", "var"], .link ["run"])]

/-- The files that every system has. -/
def standardFiles : List (Location × Node) :=
  under ["etc"] (.file [])
    ("bash.bashrc debian_version environment fstab group gshadow host.conf hostname hosts issue " ++
      "issue.net ld.so.cache ld.so.conf login.defs nsswitch.conf pam.conf passwd profile " ++
      "resolv.conf shadow shells subgid subuid") ++
  under ["lib", "usr"] (.file []) "os-release"

/-! ## Devices -/

/-- The devices. From those that never come to an end no program is read; there is no terminal. -/
def deviceNodes : List (Location × Node) :=
  under ["dev"] (.file []) "console full null ptmx random urandom zero" ++
  under ["dev"] (.sealed (.other 6 "No such device or address")) "tty" ++
  [(["fd", "dev"], .link ["proc", "self", "fd"]),
   (["stdin", "dev"], .link ["proc", "self", "fd", "0"]),
   (["stdout", "dev"], .link ["proc", "self", "fd", "1"]),
   (["stderr", "dev"], .link ["proc", "self", "fd", "2"])]

/-! ## Processes -/

/-- What processes and threads have alike. -/
def taskNodes (location : Location) : List (Location × Node) :=
  under location .directory "attr fd fdinfo net ns" ++
  under location (.file [])
    ("auxv cgroup clear_refs cmdline comm cpuset environ gid_map io limits loginuid maps " ++
      "mountinfo mounts numa_maps oom_adj oom_score oom_score_adj pagemap personality projid_map " ++
      "sched schedstat sessionid setgroups smaps smaps_rollup stack stat statm status syscall " ++
      "uid_map wchan") ++
  under location (.sealed (.other 5 "Input/output error")) "mem" ++
  under ("attr" :: location) (.file []) "current exec fscreate keycreate prev sockcreate" ++
  under ("net" :: location) .directory "dev_snmp6 netfilter stat" ++
  under ("net" :: location) (.file [])
    ("arp dev fib_trie icmp if_inet6 igmp ipv6_route netlink netstat packet protocols psched " ++
      "ptype raw raw6 route snmp snmp6 sockstat sockstat6 softnet_stat tcp tcp6 udp udp6 unix") ++
  under ("ns" :: location) (.sealed (.other 22 "Invalid argument"))
    "cgroup ipc mnt net pid pid_for_children time time_for_children user uts"

/-- What else the program has. Nothing is given to it to read. -/
def ownNodes (location : Location) : List (Location × Node) :=
  under ("fd" :: location) (.file []) "1 2" ++
  under ("fdinfo" :: location) (.file []) "0 1 2" ++
  [("0" :: "fd" :: location, .link ["dev", "null"]),
   ("cwd" :: location, .link ["tmp", unnamed]),
   ("exe" :: location, .link [unnamed]),
   ("root" :: location, .link [])]

/-- What processes have and threads do not. -/
def processNodes (location : Location) : List (Location × Node) :=
  under location .directory "map_files task" ++
  under location (.file []) "autogroup coredump_filter mountstats timers timerslack_ns"

/-- The processes: the program and the first one. -/
def standardProcesses : List (Location × Node) :=
  [(programLocation, .file []), (processLocation, .directory), (threadLocation, .directory)] ++
  under ["proc"] .directory "1" ++
  [(["self", "proc"], .link ["proc", unnamed]),
   (["thread-self", "proc"], .link ["proc", unnamed, "task", unnamed])] ++
  processNodes processLocation ++ taskNodes processLocation ++ ownNodes processLocation ++
  taskNodes threadLocation ++ ownNodes threadLocation ++
  under threadLocation (.file []) "children" ++
  processNodes ["1", "proc"] ++ taskNodes ["1", "proc"]

/-! ## The system -/

/-- What the system tells of itself. -/
def systemNodes : List (Location × Node) :=
  under ["proc"] .directory "acpi bus driver fs irq scsi sys sysvipc tty" ++
  under ["proc"] (.file [])
    ("buddyinfo cgroups cmdline consoles cpuinfo crypto devices diskstats dma execdomains " ++
      "filesystems interrupts iomem ioports kallsyms key-users keys kmsg kpagecgroup kpagecount " ++
      "kpageflags loadavg locks meminfo misc modules mtrr pagetypeinfo partitions schedstat " ++
      "slabinfo softirqs stat swaps timer_list uptime version vmallocinfo vmstat zoneinfo") ++
  [(["mounts", "proc"], .link ["proc", "self", "mounts"]),
   (["net", "proc"], .link ["proc", "self", "net"])] ++
  under ["sys"] .directory "block bus class dev devices firmware fs kernel module power" ++
  under ["class", "sys"] .directory "block mem misc net tty" ++
  under ["devices", "sys"] .directory "platform system virtual" ++
  under ["fs", "sys"] .directory "cgroup" ++
  under ["kernel", "sys"] .directory "debug mm security"

/-- The settings of the system. -/
def settingNodes : List (Location × Node) :=
  under ["sys", "proc"] .directory "abi debug dev fs kernel net user vm" ++
  under ["fs", "sys", "proc"] .directory "binfmt_misc epoll inotify mqueue" ++
  under ["fs", "sys", "proc"] (.file [])
    "aio-max-nr aio-nr dentry-state file-max file-nr inode-nr inode-state nr_open pipe-max-size" ++
  under ["kernel", "sys", "proc"] .directory "keys pty random usermodehelper" ++
  under ["kernel", "sys", "proc"] (.file [])
    ("cap_last_cap core_pattern domainname hostname msgmax msgmnb msgmni ngroups_max osrelease " ++
      "ostype overflowgid overflowuid panic pid_max printk randomize_va_space sem shmall shmmax " ++
      "shmmni tainted threads-max version") ++
  under ["random", "kernel", "sys", "proc"] (.file []) "boot_id entropy_avail poolsize uuid" ++
  under ["net", "sys", "proc"] .directory "core ipv4 ipv6 netfilter unix" ++
  under ["vm", "sys", "proc"] (.file [])
    ("dirty_ratio drop_caches laptop_mode max_map_count min_free_kbytes mmap_min_addr " ++
      "overcommit_memory overcommit_ratio page-cluster panic_on_oom swappiness")

/-- The standard tree with the given files in the working directory. -/
def standard (files : List (String × List UInt8)) : FileTree where
  nodes :=
    [(workingLocation, .directory)] ++
      files.map (fun (name, bytes) => (name :: workingLocation, .file bytes)) ++
      standardDirectories ++ standardLinks ++ standardFiles ++ deviceNodes ++ standardProcesses ++
      systemNodes ++ settingNodes
  working := workingLocation
  unlimited := ["proc", "sys"]

end Chip8.FileTree
