import IcnPrototype.Lib.Run
import IcnPrototype.Lib.Handshake
import IcnPrototype.Lib.Bytes
import IcnPrototype.Lib.Writes
import IcnPrototype.Lib.Dll
import IcnPrototype.Lib.Resource
import IcnPrototype.Lib.Layout
import IcnPrototype.Lib.Decimal
import IcnPrototype.Lib.Checked
import IcnPrototype.Lib.OnesComplement
import IcnPrototype.Lib.Balance
import IcnPrototype.Lib.SortedSet
import IcnPrototype.Lib.Sample
import IcnPrototype.Lib.Sll
import IcnPrototype.Lib.Lines
import IcnPrototype.Lib.Words
import IcnPrototype.Lib.Calendar
import IcnPrototype.Lib.Refine
import IcnPrototype.Lib.Buckets
import IcnPrototype.Lib.Strtoul
import IcnPrototype.Lib.Getopt
import IcnPrototype.Host
import IcnPrototype.Rm.LinkTable
import IcnPrototype.Rm.Chain
import IcnPrototype.Rm.Negotiation
import IcnPrototype.Rm.Handlers
import IcnPrototype.Rm.ReadConfiguration
import IcnPrototype.Rm.InStep
import IcnPrototype.Rm.Network
import IcnPrototype.Rm.Agreement
import IcnPrototype.Rm.ChangeTime
import IcnPrototype.Rm.Uniqueness
import IcnPrototype.Rm.Unexpected
import IcnPrototype.Rm.Frames
import IcnPrototype.Rm.Announce
import IcnPrototype.Rm.MainLoop
import IcnPrototype.Rm.Trap
import IcnPrototype.Rm.Ownership
import IcnPrototype.Rm.Alignment
import IcnPrototype.Rm.Capacity
import IcnPrototype.Rm.Forward
import IcnPrototype.Rm.Checksum
import IcnPrototype.Rm.Lunxun
import IcnPrototype.Rm.TxMbufs
import IcnPrototype.Rm.StartUp
import IcnPrototype.Rm.CommandLine
import IcnPrototype.Rm.Options
import IcnPrototype.Rm.Leak
import IcnPrototype.Rm.MaxMinUtility
import IcnPrototype.BorderRouter.Router
import IcnPrototype.BorderRouter.PidRouting
import IcnPrototype.BorderRouter.Disposal
import IcnPrototype.BorderRouter.Shorten
import IcnPrototype.BorderRouter.Items
import IcnPrototype.BorderRouter.Path
import IcnPrototype.BorderRouter.DataPath
import IcnPrototype.BorderRouter.Bridges
import IcnPrototype.Monitor.Timer
import IcnPrototype.Monitor.TimerList
import IcnPrototype.Monitor.Insert
import IcnPrototype.Monitor.Signal
import IcnPrototype.Monitor.Order
import IcnPrototype.Monitor.Ledger
import IcnPrototype.Monitor.Punctual
import IcnPrototype.Monitor.SortedInsert
import IcnPrototype.Monitor.LateTick
import IcnPrototype.Monitor.Listener
import IcnPrototype.Monitor.Supervisor
import IcnPrototype.Monitor.Statistics
import IcnPrototype.Monitor.LocalComm
import IcnPrototype.Monitor.LocalThread
import IcnPrototype.Monitor.LocalSender
import IcnPrototype.Monitor.Trap
import IcnPrototype.Monitor.Discovery
import IcnPrototype.Monitor.PortTrap
import IcnPrototype.Monitor.Capture
import IcnPrototype.Monitor.RoundTrip
import IcnPrototype.Monitor.LinkStats
import IcnPrototype.Monitor.Chksum
import IcnPrototype.Monitor.ListHandle
import IcnPrototype.Monitor.TimerFile
import IcnPrototype.Monitor.PortFile
import IcnPrototype.Monitor.InformElements
import IcnPrototype.Monitor.LocalInform
import IcnPrototype.Monitor.Schedule
import IcnPrototype.Monitor.Scanners
import IcnPrototype.Monitor.History
import IcnPrototype.Monitor.Ntp
import IcnPrototype.Client.ColorGetNew
import IcnPrototype.Server.FlowGenerator
import IcnPrototype.Server.SendDataPackets
import IcnPrototype.TrapHandshake
import IcnPrototype.GetPath
import IcnPrototype.Publication
import IcnPrototype.TrapNetwork
import IcnPrototype.Answer
