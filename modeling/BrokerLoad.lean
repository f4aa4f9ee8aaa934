import BrokerLoad.Broker.CommandScript
import BrokerLoad.Broker.PumpScript
import BrokerLoad.Main
import BrokerLoad.Payload
import BrokerLoad.Proofs.Runs
import BrokerLoad.Proofs.Moments
import BrokerLoad.Proofs.Publisher.Moves
import BrokerLoad.Proofs.Publisher.Account
import BrokerLoad.Proofs.Publisher.Interruption
import BrokerLoad.Proofs.Subscriber.Moves
import BrokerLoad.Proofs.Subscriber.Transcript
import BrokerLoad.Proofs.Pump.Forwarding
import BrokerLoad.Proofs.Conversation
import BrokerLoad.Proofs.Subscriber.Interruption
import BrokerLoad.Proofs.Relay
import BrokerLoad.Proofs.Announcements
import BrokerLoad.Proofs.WriterLimit
import BrokerLoad.Proofs.Answers
import BrokerLoad.Proofs.Subscriber.Succession
import BrokerLoad.Proofs.ByteLiteral
import BrokerLoad.Proofs.ByteLiteral.Grammar
import BrokerLoad.Proofs.Subscriber.Record
import BrokerLoad.Proofs.Pump.Stopping
import BrokerLoad.Proofs.Publisher.Completion
import BrokerLoad.Proofs.Publisher.Pacing
import BrokerLoad.Proofs.Performance
import BrokerLoad.Proofs.Reporter.Transcript
import BrokerLoad.Proofs.Client.Delivery
import BrokerLoad.Proofs.Publication
import BrokerLoad.Proofs.Client.RequestQueue
import BrokerLoad.Proofs.Payload
import BrokerLoad.Proofs.Resting
import BrokerLoad.Proofs.Flushing
